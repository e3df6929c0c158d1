import Mathlib.Algebra.BigOperators.Ring.List
import Mathlib.Algebra.GroupWithZero.Nat
import ScanPath.Proofs.Composition.Reordering

/-!
# Counting the points

The lengths of the dimensions are multiplied one by one, and the count is given
up as soon as a product is too large.  So what counts is whether the first few
lengths overrun the limit, even if an empty dimension comes after them.  Without
empty dimensions this is the whole product, and the order of the dimensions makes
no difference.
-/

namespace ScanPath

namespace Composition

/-! ## Products of leading lengths -/

/-- The product of the first few lengths is more than can be counted. -/
def Overruns (lengths : List Nat) : Prop := ∃ count, countLimit ≤ (lengths.take count).prod

theorem countedProduct?_eq_none_iff {total : Nat} (h : total < countLimit) (lengths : List Nat) :
    countedProduct? total lengths = none ↔
      ∃ count, countLimit ≤ total * (lengths.take count).prod := by
  induction lengths generalizing total with
  | nil => simp [countedProduct?, h]
  | cons length lengths ih =>
      unfold countedProduct?
      split
      next hnext =>
        rw [ih hnext]
        constructor
        · rintro ⟨count, hcount⟩
          refine ⟨count + 1, ?_⟩
          rw [List.take_succ_cons, List.prod_cons, ← Nat.mul_assoc]
          exact hcount
        · rintro ⟨count, hcount⟩
          cases count with
          | zero =>
              rw [List.take_zero, List.prod_nil, Nat.mul_one] at hcount
              omega
          | succ count =>
              rw [List.take_succ_cons, List.prod_cons, ← Nat.mul_assoc] at hcount
              exact ⟨count, hcount⟩
      next hnext =>
        refine ⟨fun _ => ⟨1, ?_⟩, fun _ => rfl⟩
        simpa using hnext

theorem overruns_of_le_prod {lengths : List Nat} (h : countLimit ≤ lengths.prod) :
    Overruns lengths :=
  ⟨lengths.length, by rw [List.take_length]; exact h⟩

theorem overruns_iff_of_pos {lengths : List Nat} (h : 0 ∉ lengths) :
    Overruns lengths ↔ countLimit ≤ lengths.prod := by
  refine ⟨?_, overruns_of_le_prod⟩
  rintro ⟨count, hcount⟩
  have hrest : 0 < (lengths.drop count).prod :=
    Nat.pos_of_ne_zero (List.prod_ne_zero fun hmem => h (List.mem_of_mem_drop hmem))
  calc countLimit
      ≤ (lengths.take count).prod := hcount
    _ ≤ (lengths.take count).prod * (lengths.drop count).prod := Nat.le_mul_of_pos_right _ hrest
    _ = lengths.prod := by rw [← List.prod_append, List.take_append_drop]

theorem countPoints_of_overruns {spanning : List Excluder} {dimensions : List Dimension}
    (h : Overruns (dimensions.map Dimension.length)) :
    countPoints spanning dimensions = .error (.sizeOverflow (dimensions.map Dimension.length)) := by
  have hnone : countedProduct? 1 (dimensions.map Dimension.length) = none := by
    rw [countedProduct?_eq_none_iff (by decide)]
    simpa [Overruns] using h
  simp only [countPoints, hnone]

theorem exists_countPoints (spanning : List Excluder) {dimensions : List Dimension}
    (h : ¬ Overruns (dimensions.map Dimension.length)) :
    ∃ size, countPoints spanning dimensions = .ok size := by
  have hsome : countedProduct? 1 (dimensions.map Dimension.length) ≠ none := by
    rw [Ne, countedProduct?_eq_none_iff (by decide)]
    simpa [Overruns] using h
  obtain ⟨product, hproduct⟩ := Option.ne_none_iff_exists'.mp hsome
  simp only [countPoints, hproduct]
  exact ⟨_, rfl⟩

end Composition

namespace Composer

open ScanPath.Composition

def leaves (composer : Composer) : List Leaf := composer.inputs.flatMap Input.leaves

def supplied (composer : Composer) : List Excluder :=
  composer.excluders ++ composer.inputs.flatMap Input.excluders

def keptExcluders (composer : Composer) : List Excluder :=
  Descriptor.firstOccurrences Excluder.descriptor composer.supplied

def keptMutators (composer : Composer) : List Mutator :=
  Descriptor.firstOccurrences Mutator.descriptor
    (composer.mutators ++ composer.inputs.flatMap Input.mutators)

/-- The composer was not prepared before and passes the checks on its inputs, its duration and
its axes. -/
structure Consistent (composer : Composer) (owners : Keyed Nat) : Prop where
  fresh : composer.prepared = false
  inputs_ne_nil : composer.inputs ≠ []
  duration_ok : ∃ duration, settledDuration composer.duration = .ok duration
  owners_eq : claimLeaves 0 ∅ composer.leaves = .ok owners
  excluders_known : ∀ excluder ∈ composer.keptExcluders, ∀ axis ∈ excluder.axes,
    owners.contains axis = true
  mutators_known : ∀ mutator ∈ composer.keptMutators, ∀ axis ∈ mutator.axes,
    owners.contains axis = true

def lengths (composer : Composer) (owners : Keyed Nat) : List Nat :=
  (fold owners composer.keptExcluders 0 composer.leaves).map Dimension.length

variable {composer other : Composer} {owners others : Keyed Nat}

theorem Consistent.prepare_eq (h : composer.Consistent owners) :
    ∃ duration, composer.prepare.1 =
      (countPoints (spanningOf owners composer.keptExcluders)
        (fold owners composer.keptExcluders 0 composer.leaves)).map fun size =>
          ⟨fold owners composer.keptExcluders 0 composer.leaves, owners, composer.keptExcluders,
            spanningOf owners composer.keptExcluders, composer.keptMutators, duration, size⟩ := by
  obtain ⟨duration, hduration⟩ := h.duration_ok
  refine ⟨duration, ?_⟩
  have hexcluders : (composer.keptExcluders.forM fun excluder =>
      requireKnown owners .excluder excluder.axes) = .ok () :=
    Checked.forM_eq_ok.mpr fun excluder hmem =>
      requireKnown_eq_ok.mpr (h.excluders_known excluder hmem)
  have hmutators : (composer.keptMutators.forM fun mutator =>
      requireKnown owners .mutator mutator.axes) = .ok () :=
    Checked.forM_eq_ok.mpr fun mutator hmem =>
      requireKnown_eq_ok.mpr (h.mutators_known mutator hmem)
  rw [prepare, h.fresh, if_neg Bool.false_ne_true]
  change composer.compose = _
  rw [compose_of_ne_nil h.inputs_ne_nil, hduration, Checked.ok_bind]
  change assemble composer.leaves composer.keptExcluders composer.keptMutators duration = _
  rw [assemble, h.owners_eq, Checked.ok_bind, hexcluders, Checked.ok_bind, hmutators,
    Checked.ok_bind]
  change (countPoints (spanningOf owners composer.keptExcluders)
    (fold owners composer.keptExcluders 0 composer.leaves) >>= _) = _
  cases countPoints (spanningOf owners composer.keptExcluders)
    (fold owners composer.keptExcluders 0 composer.leaves) with
  | error cause => rfl
  | ok size => rfl

theorem Consistent.prepare_of_overruns (h : composer.Consistent owners)
    (hoverruns : Overruns (composer.lengths owners)) :
    composer.prepare.1 = .error (.sizeOverflow (composer.lengths owners)) := by
  obtain ⟨duration, hprepare⟩ := h.prepare_eq
  rw [hprepare, countPoints_of_overruns hoverruns]
  rfl

theorem Consistent.exists_prepare_eq (h : composer.Consistent owners)
    (hcounted : ¬ Overruns (composer.lengths owners)) :
    ∃ composition, composer.prepare.1 = .ok composition ∧
      composition.shape = composer.lengths owners := by
  obtain ⟨duration, hprepare⟩ := h.prepare_eq
  obtain ⟨size, hsize⟩ := exists_countPoints (spanningOf owners composer.keptExcluders) hcounted
  rw [hprepare, hsize]
  exact ⟨_, rfl, rfl⟩

theorem Consistent.lengths_eq (h : composer.Consistent owners) :
    composer.lengths owners = composer.leaves.map (maskedLength composer.keptExcluders) :=
  map_length_fold h.owners_eq h.excluders_known

theorem Consistent.lengths_perm (h : composer.Consistent owners) (h' : other.Consistent others)
    (hinputs : other.inputs.Perm composer.inputs) (hown : other.excluders = composer.excluders)
    (hequal : ∀ first ∈ composer.supplied, ∀ second ∈ composer.supplied,
      (first.descriptor == second.descriptor) = true → first.Agrees second) :
    (other.lengths others).Perm (composer.lengths owners) := by
  have hsupplied : other.supplied.Perm composer.supplied := by
    rw [supplied, supplied, hown]
    exact (hinputs.flatMap_right _).append_left _
  have hequal' : ∀ first ∈ other.supplied, ∀ second ∈ other.supplied,
      (first.descriptor == second.descriptor) = true → first.Agrees second := by
    intro first hfirst second hsecond
    exact hequal first (hsupplied.subset hfirst) second (hsupplied.subset hsecond)
  have hmasked : maskedLength other.keptExcluders = maskedLength composer.keptExcluders :=
    maskedLength_congr (Excluder.allFound_firstOccurrences hsupplied.subset hequal)
      (Excluder.allFound_firstOccurrences hsupplied.symm.subset hequal')
  rw [h.lengths_eq, h'.lengths_eq, hmasked]
  exact (hinputs.flatMap_right _).map _

theorem Consistent.isOk_prepare (h : composer.Consistent owners) :
    composer.prepare.1.isOk = true ↔ ¬ Overruns (composer.lengths owners) := by
  constructor
  · intro hok hoverruns
    rw [h.prepare_of_overruns hoverruns] at hok
    cases hok
  · intro hcounted
    obtain ⟨composition, hprepare, -⟩ := h.exists_prepare_eq hcounted
    rw [hprepare]
    rfl

/-! ## What is too large -/

/-- A consistent composer is refused exactly when some first few of its lengths overrun the limit,
and composes otherwise.  When no dimension is empty, it is refused exactly when the product of the
lengths does, and the order of the inputs makes no difference. -/
theorem Consistent.sizeOverflow_iff (h : composer.Consistent owners) :
    (composer.prepare.1 = .error (.sizeOverflow (composer.lengths owners)) ↔
      Overruns (composer.lengths owners)) ∧
    (¬ Overruns (composer.lengths owners) → ∃ composition, composer.prepare.1 = .ok composition ∧
      composition.shape = composer.lengths owners) ∧
    (0 ∉ composer.lengths owners →
      (composer.prepare.1 = .error (.sizeOverflow (composer.lengths owners)) ↔
        countLimit ≤ (composer.lengths owners).prod) ∧
      ∀ (other : Composer) (others : Keyed Nat), other.Consistent others →
        other.inputs.Perm composer.inputs → other.excluders = composer.excluders →
        (∀ first ∈ composer.supplied, ∀ second ∈ composer.supplied,
          (first.descriptor == second.descriptor) = true → first.Agrees second) →
        other.prepare.1.isOk = composer.prepare.1.isOk) := by
  have hiff : composer.prepare.1 = .error (.sizeOverflow (composer.lengths owners)) ↔
      Overruns (composer.lengths owners) := by
    refine ⟨?_, h.prepare_of_overruns⟩
    intro herror
    apply Classical.byContradiction
    intro hcounted
    have hok := h.isOk_prepare.mpr hcounted
    rw [herror] at hok
    cases hok
  refine ⟨hiff, h.exists_prepare_eq, ?_⟩
  intro hpos
  refine ⟨hiff.trans (overruns_iff_of_pos hpos), ?_⟩
  intro other others h' hinputs hown hequal
  have hperm := h.lengths_perm h' hinputs hown hequal
  have hpos' : 0 ∉ other.lengths others := fun hmem => hpos (hperm.subset hmem)
  rw [Bool.eq_iff_iff, h.isOk_prepare, h'.isOk_prepare, overruns_iff_of_pos hpos,
    overruns_iff_of_pos hpos', hperm.prod_eq]

def sampleInputs (lengths : List (String × Nat)) : List Input :=
  lengths.map fun (axis, length) => .leaf (sampleLeaf axis length false)

def sampleGrid (lengths : List (String × Nat)) (excluder : Excluder) : Composer :=
  ofParts (sampleInputs lengths) [excluder] [] none

private theorem exists_consistent (lengths : List (String × Nat)) (excluder : Excluder)
    (masked : List Nat) (hlengths : lengths ≠ [])
    (h : (claimLeaves 0 ∅ (sampleGrid lengths excluder).leaves).toOption.any (fun owners =>
      (sampleGrid lengths excluder).keptExcluders.all (·.axes.all owners.contains) &&
        (sampleGrid lengths excluder).lengths owners == masked) = true) :
    ∃ owners, (sampleGrid lengths excluder).Consistent owners ∧
      (sampleGrid lengths excluder).lengths owners = masked := by
  obtain ⟨owners, howners, hfacts⟩ := Checked.exists_of_any h
  simp only [Bool.and_eq_true, List.all_eq_true, beq_iff_eq] at hfacts
  obtain ⟨hexcluders, hmasked⟩ := hfacts
  have hmutators : (sampleGrid lengths excluder).keptMutators = [] := by
    have hnone : (sampleInputs lengths).flatMap Input.mutators = [] := by
      rw [sampleInputs, List.flatMap_map]
      exact List.flatMap_eq_nil_iff.mpr fun _ _ => rfl
    rw [keptMutators, sampleGrid, ofParts, hnone]
    rfl
  refine ⟨owners, ?_, hmasked⟩
  exact {
    fresh := rfl
    inputs_ne_nil := by simpa [sampleGrid, ofParts, sampleInputs] using hlengths
    duration_ok := ⟨none, rfl⟩
    owners_eq := howners
    excluders_known := hexcluders
    mutators_known := by simp [hmutators] }

theorem sizeOverflow_iff_sampleGrid :
    (sampleGrid [("x", 2 ^ 63), ("y", 2), ("z", 2)] (sampleExcluder ["z"])).prepare.1 =
        .error (.sizeOverflow [2 ^ 63, 2, 1]) ∧
      (sampleGrid [("z", 2), ("x", 2 ^ 63), ("y", 2)] (sampleExcluder ["z"])).prepare.1.isOk =
        false := by
  obtain ⟨owners, h, hlengths⟩ := exists_consistent [("x", 2 ^ 63), ("y", 2), ("z", 2)]
    (sampleExcluder ["z"]) [2 ^ 63, 2, 1] (List.cons_ne_nil _ _) (by decide +kernel)
  obtain ⟨others, h', -⟩ := exists_consistent [("z", 2), ("x", 2 ^ 63), ("y", 2)]
    (sampleExcluder ["z"]) [1, 2 ^ 63, 2] (List.cons_ne_nil _ _) (by decide +kernel)
  obtain ⟨-, -, hpos⟩ := h.sizeOverflow_iff
  rw [hlengths] at hpos
  obtain ⟨hiff, horder⟩ := hpos (by decide)
  have hrefused := hiff.mpr (by decide)
  have hrotated : (sampleInputs [("z", 2), ("x", 2 ^ 63), ("y", 2)]).Perm
      (sampleInputs [("x", 2 ^ 63), ("y", 2), ("z", 2)]) :=
    (List.perm_append_comm : ([_] ++ [_, _]).Perm ([_, _] ++ [_]))
  have hsupplied : (sampleGrid [("x", 2 ^ 63), ("y", 2), ("z", 2)]
      (sampleExcluder ["z"])).supplied = [sampleExcluder ["z"]] := rfl
  refine ⟨hrefused, ?_⟩
  rw [horder _ others h' hrotated rfl ?_, hrefused]
  · rfl
  · rw [hsupplied]
    intro first hfirst second hsecond _
    rw [List.mem_singleton.mp hfirst, List.mem_singleton.mp hsecond]
    exact ⟨rfl, rfl⟩

def closedExcluder (axis : String) : Excluder :=
  { sampleExcluder [axis] with contains := fun _ => false }

/-- A scan without any points is refused as too large when its empty dimension comes last, and
composed when that dimension comes first. -/
theorem sizeOverflow_before_empty :
    ∃ owners, (sampleGrid [("x", 2 ^ 63), ("y", 2), ("z", 2)] (closedExcluder "z")).Consistent
        owners ∧
      ((sampleGrid [("x", 2 ^ 63), ("y", 2), ("z", 2)] (closedExcluder "z")).lengths owners).prod =
        0 ∧
      (sampleGrid [("x", 2 ^ 63), ("y", 2), ("z", 2)] (closedExcluder "z")).prepare.1 =
        .error (.sizeOverflow [2 ^ 63, 2, 0]) ∧
      ∃ composition, (sampleGrid [("z", 2), ("x", 2 ^ 63), ("y", 2)]
        (closedExcluder "z")).prepare.1 = .ok composition ∧ composition.size = 0 := by
  obtain ⟨owners, h, hlengths⟩ := exists_consistent [("x", 2 ^ 63), ("y", 2), ("z", 2)]
    (closedExcluder "z") [2 ^ 63, 2, 0] (List.cons_ne_nil _ _) (by decide +kernel)
  have hoverruns : Overruns [2 ^ 63, 2, 0] := ⟨2, by decide⟩
  have hrefused := h.prepare_of_overruns (hlengths ▸ hoverruns)
  rw [hlengths] at hrefused
  obtain ⟨composition, haccepted, hsize⟩ := Checked.exists_of_any
    (show (sampleGrid [("z", 2), ("x", 2 ^ 63), ("y", 2)]
      (closedExcluder "z")).prepare.1.toOption.any (·.size == 0) = true by decide +kernel)
  exact ⟨owners, h, by rw [hlengths]; rfl, hrefused, composition, haccepted, eq_of_beq hsize⟩

end Composer

end ScanPath
