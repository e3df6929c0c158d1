import ScanPath.Proofs.Composition.Grid
import ScanPath.Proofs.Composition.Owners
import ScanPath.Proofs.Composition.Size

/-!
# Filtering

Whether an excluder is folded into a dimension or asked about every candidate, a
composition emits the product of its leaves filtered by every excluder that was
supplied anywhere.  The folded ones are taken out of the product leaf by leaf:
the rows of the later leaves do not have the axes of the earlier ones, so an
excluder with a home sees the same values in the row of its leaf and in the
whole point.
-/

namespace ScanPath

namespace Composition

/-! ## Folded excluders -/

def foldedFrom (owners : Keyed Nat) (index : Nat) (excluder : Excluder) : Bool :=
  (home? owners excluder).any (index ≤ ·)

theorem foldedFrom_iff {owners : Keyed Nat} {index : Nat} {excluder : Excluder} :
    foldedFrom owners index excluder = true ↔
      ∃ home, home? owners excluder = some home ∧ index ≤ home := by
  rw [foldedFrom, Option.any_eq_true]
  simp only [decide_eq_true_eq]

private theorem combinations_filter {block rest : List (List (String × Float))}
    {first later both : List (String × Float) → Bool}
    (h : ∀ row ∈ block, ∀ others ∈ rest, both (row ++ others) = (first row && later others)) :
    (block.filter first).flatMap (fun row => (rest.filter later).map (row ++ ·)) =
      (block.flatMap fun row => rest.map (row ++ ·)).filter both := by
  induction block with
  | nil => rfl
  | cons row block ih =>
      rw [List.forall_mem_cons] at h
      have hrow : (rest.map (row ++ ·)).filter both =
          (rest.filter fun others => first row && later others).map (row ++ ·) := by
        rw [List.filter_map]
        congr 1
        exact List.filter_congr h.1
      rw [List.flatMap_cons, List.filter_append, hrow, ← ih h.2, List.filter_cons]
      cases hfirst : first row with
      | true => simp
      | false => simp

section

variable {owners : Keyed Nat} {excluder : Excluder} {index home : Nat} {leaf : Leaf}
  {leaves : List Leaf} {row rest : List (String × Float)}

theorem accepts_append_of_home (hknown : ∀ axis ∈ excluder.axes, owners.contains axis = true)
    (hhome : home? owners excluder = some home)
    (hrow : ∀ axis, owners.get? axis = some home → axis ∈ row.map Prod.fst) :
    excluder.accepts ((row ++ rest).lookup ·) = excluder.accepts (row.lookup ·) := by
  apply Excluder.accepts_congr
  intro axis hmem
  have howner := get?_of_home? hknown hhome axis hmem
  obtain ⟨entry, hentry, hname⟩ := List.mem_map.mp (hrow axis howner)
  have hsome : (row.lookup axis).isSome = true :=
    List.lookup_isSome_iff.mpr ⟨entry, hentry, by simp [hname]⟩
  rw [List.lookup_append, Option.or_of_isSome hsome]

theorem accepts_append_of_later (hknown : ∀ axis ∈ excluder.axes, owners.contains axis = true)
    (hhome : home? owners excluder = some home)
    (hrow : ∀ axis, owners.get? axis = some home → axis ∉ row.map Prod.fst) :
    excluder.accepts ((row ++ rest).lookup ·) = excluder.accepts (rest.lookup ·) := by
  apply Excluder.accepts_congr
  intro axis hmem
  have hnot := hrow axis (get?_of_home? hknown hhome axis hmem)
  have hnone : row.lookup axis = none := by
    rw [List.lookup_eq_none_iff]
    intro entry hentry
    simp only [bne_iff_ne, ne_eq]
    rintro rfl
    exact hnot (List.mem_map_of_mem hentry)
  rw [List.lookup_append, hnone, Option.none_or]

variable {excluders : List Excluder}
  (hknown : ∀ excluder ∈ excluders, ∀ axis ∈ excluder.axes, owners.contains axis = true)

include hknown

theorem all_folded_append
    (hown : ∀ axis, owners.get? axis = some index → axis ∈ row.map Prod.fst)
    (hlater : ∀ axis home, index < home → owners.get? axis = some home →
      axis ∉ row.map Prod.fst) :
    ((excluders.filter (foldedFrom owners index)).all fun excluder =>
        excluder.accepts ((row ++ rest).lookup ·)) =
      (((excluders.filter fun excluder => home? owners excluder == some index).all fun excluder =>
          excluder.accepts (row.lookup ·)) &&
        (excluders.filter (foldedFrom owners (index + 1))).all fun excluder =>
          excluder.accepts (rest.lookup ·)) := by
  rw [Bool.eq_iff_iff, Bool.and_eq_true, List.all_eq_true, List.all_eq_true, List.all_eq_true]
  constructor
  · intro h
    constructor
    · intro excluder hfilter
      obtain ⟨hmem, hhome⟩ := List.mem_filter.mp hfilter
      rw [beq_iff_eq] at hhome
      rw [← accepts_append_of_home (hknown excluder hmem) hhome hown]
      exact h excluder (List.mem_filter.mpr
        ⟨hmem, foldedFrom_iff.mpr ⟨index, hhome, Nat.le_refl index⟩⟩)
    · intro excluder hfilter
      obtain ⟨hmem, hfolded⟩ := List.mem_filter.mp hfilter
      obtain ⟨home, hhome, hle⟩ := foldedFrom_iff.mp hfolded
      rw [← accepts_append_of_later (hknown excluder hmem) hhome
        (fun axis => hlater axis home (by omega))]
      exact h excluder (List.mem_filter.mpr
        ⟨hmem, foldedFrom_iff.mpr ⟨home, hhome, by omega⟩⟩)
  · rintro ⟨hfirst, hrest⟩ excluder hfilter
    obtain ⟨hmem, hfolded⟩ := List.mem_filter.mp hfilter
    obtain ⟨home, hhome, hle⟩ := foldedFrom_iff.mp hfolded
    by_cases heq : home = index
    · subst heq
      rw [accepts_append_of_home (hknown excluder hmem) hhome hown]
      exact hfirst excluder (List.mem_filter.mpr ⟨hmem, by rw [hhome, beq_self_eq_true]⟩)
    · rw [accepts_append_of_later (hknown excluder hmem) hhome
        (fun axis => hlater axis home (by omega))]
      exact hrest excluder (List.mem_filter.mpr
        ⟨hmem, foldedFrom_iff.mpr ⟨home, hhome, by omega⟩⟩)

/-- Taking the masked rows of every leaf is filtering the product by the excluders behind the
masks. -/
theorem combinations_fold (hlawful : ∀ leaf ∈ leaves, leaf.Lawful)
    (howners : ∀ axis owner, index ≤ owner → owners.get? axis = some owner →
      ownerFrom? index leaves axis = some owner) :
    combinations ((fold owners excluders index leaves).map Dimension.rows) =
      (combinations (leaves.map Leaf.rows)).filter fun row =>
        (excluders.filter (foldedFrom owners index)).all fun excluder =>
          excluder.accepts (row.lookup ·) := by
  induction leaves generalizing index with
  | nil =>
      have hnone : excluders.filter (foldedFrom owners index) = [] := by
        rw [List.filter_eq_nil_iff]
        intro excluder _ hfolded
        obtain ⟨home, hhome, hle⟩ := foldedFrom_iff.mp hfolded
        obtain ⟨axis, -, haxis⟩ := exists_axis_of_home? hhome
        cases howners axis home hle haxis
      rw [hnone]
      rfl
  | cons leaf leaves ih =>
      rw [List.forall_mem_cons] at hlawful
      have hown : ∀ axis, owners.get? axis = some index → axis ∈ leaf.axes := by
        intro axis haxis
        exact mem_of_ownerFrom?_self (howners axis index (Nat.le_refl index) haxis)
      have hlater : ∀ axis home, index < home → owners.get? axis = some home →
          axis ∉ leaf.axes ∧ ownerFrom? (index + 1) leaves axis = some home := by
        intro axis home hlt haxis
        exact ownerFrom?_of_lt (howners axis home (by omega) haxis) hlt
      have hmasked : ∀ excluder ∈ excluders.filter (home? owners · == some index),
          ∀ axis ∈ excluder.axes, axis ∈ leaf.axes := by
        intro excluder hfilter axis haxis
        obtain ⟨hmem, hhome⟩ := List.mem_filter.mp hfilter
        exact hown axis (get?_of_home? (hknown excluder hmem) (eq_of_beq hhome) axis haxis)
      have hrest := ih hlawful.2 fun axis owner hle haxis => (hlater axis owner hle haxis).2
      rw [fold, List.map_cons, combinations, Dimension.rows_masked hlawful.1 index hmasked, hrest,
        List.map_cons, combinations]
      apply combinations_filter
      intro row hrow rest _
      have hnames := hlawful.1.map_fst_of_mem_rows hrow
      apply all_folded_append hknown
      · rw [hnames]
        exact hown
      · rw [hnames]
        exact fun axis home hlt haxis => (hlater axis home hlt haxis).1

end

theorem all_folded_and_spanning (owners : Keyed Nat) (excluders : List Excluder)
    (keeps : Excluder → Bool) :
    ((excluders.filter (foldedFrom owners 0)).all keeps &&
      (spanningOf owners excluders).all keeps) = excluders.all keeps := by
  induction excluders with
  | nil => rfl
  | cons excluder excluders ih =>
      rw [List.all_cons, ← ih, spanningOf, List.filter_cons, List.filter_cons, ← spanningOf]
      cases hhome : home? owners excluder with
      | none =>
          have hfolded : foldedFrom owners 0 excluder = false := by rw [foldedFrom, hhome]; rfl
          simp [hfolded, Bool.and_left_comm]
      | some home =>
          have hfolded : foldedFrom owners 0 excluder = true :=
            foldedFrom_iff.mpr ⟨home, hhome, Nat.zero_le home⟩
          simp [hfolded, Bool.and_assoc]

theorem Assembled.values_filtered {leaves : List Leaf} {excluders : List Excluder}
    {mutators : List Mutator} {duration : Option Float} {composition : Composition}
    (h : Assembled leaves excluders mutators duration composition)
    (hlawful : ∀ leaf ∈ leaves, leaf.Lawful) :
    ((reach composition.dimensions ∅).filter (admits composition.spanning)).map Position.values =
      (grid leaves).filter fun table => excluders.all fun excluder =>
        excluder.accepts table.get? := by
  obtain ⟨hnodup, howners⟩ := claimLeaves_empty_eq_ok h.owners_eq
  have hdimensions : ∀ dimension ∈ composition.dimensions, dimension.Lawful := by
    rw [h.dimensions_eq]
    exact fold_lawful hlawful
  have hadmits : admits composition.spanning = (fun table : Keyed Float =>
      composition.spanning.all fun excluder => excluder.accepts table.get?) ∘
        Position.values := by
    funext position
    rw [admits, Function.comp_apply]
    congr 1
    funext excluder
    exact passes_eq position excluder
  have hfold := combinations_fold h.excluders_known hlawful
    fun axis owner (_ : 0 ≤ owner) haxis => (howners axis).symm.trans haxis
  rw [hadmits, ← List.filter_map, values_reach hdimensions, h.dimensions_eq, hfold]
  change (((combinations (leaves.map Leaf.rows)).filter _).map Keyed.ofList).filter _ = _
  rw [grid, List.filter_map, List.filter_filter, List.filter_map]
  congr 1
  apply List.filter_congr
  intro row hrow
  have hget : (Keyed.ofList row).get? = (row.lookup ·) := by
    funext axis
    apply Keyed.get?_ofList
    rw [map_fst_of_mem_combinations hlawful hrow]
    exact hnodup
  rw [Function.comp_apply, Function.comp_apply, hget, h.spanning_eq,
    ← all_folded_and_spanning composition.owners excluders, Bool.and_comm]

theorem course_eq_settings {composition : Composition}
    (h : ∀ leaf ∈ composition.leaves.tail, leaf.alternate = false) :
    composition.course = Odometer.settings composition.wheels := by
  have hwheels := alternate_of_mem_tail_wheels h
  have hshown : ∀ counters ∈ Odometer.settings composition.wheels,
      Odometer.visited composition.wheels counters = counters := by
    intro counters hmem
    exact Odometer.visited_of_not_alternate hwheels hmem
  rw [course, List.map_congr_left hshown, List.map_id']

end Composition

/-! ## Every excluder that was supplied -/

namespace ComposerTree

open ScanPath.Composition

/-- A pass emits what every excluder of the tree accepts of the product of all its leaves, folded
or not and dropped as a duplicate or not. -/
theorem emits_filtered_grid {trees : List ComposerTree} {inputs : List Composer.Input}
    {own : List Excluder} {duration : Option Float} {composition : Composition}
    (hinputs : ComposerTree.inputs trees = .ok inputs)
    (hprepare : (Composer.ofParts inputs own [] duration).prepare.1 = .ok composition)
    (hmutators : mutators trees = []) (hlawful : ∀ leaf ∈ leaves trees, leaf.Lawful)
    (hequal : ∀ first ∈ own ++ excluders trees, ∀ second ∈ own ++ excluders trees,
      (first.descriptor == second.descriptor) = true →
        first.axes = second.axes ∧ first.contains = second.contains) :
    ∃ positions : List Position, Source.Emits Pass.pull (Pass.start composition) positions ∧
      (positions.map Position.values).Perm
        ((grid (leaves trees)).filter fun table =>
          (own ++ excluders trees).all fun excluder => excluder.accepts table.get?) ∧
      ((∀ leaf ∈ (leaves trees).tail, leaf.alternate = false) →
        positions.map Position.values =
          (grid (leaves trees)).filter fun table =>
            (own ++ excluders trees).all fun excluder => excluder.accepts table.get?) := by
  obtain ⟨settled, hassembled⟩ := assembled_of_prepare hinputs hprepare
  have hprepared : Prepared composition := .of _ _ (inputs_prepared trees hinputs) hprepare
  have hleaves := hassembled.leaves_eq
  obtain ⟨hwheels, hcomplete, -⟩ := hprepared.sound (hleaves ▸ hlawful)
  have hkept : composition.mutators = [] := by
    rw [hassembled.mutators_eq, hmutators]
    rfl
  -- a duplicate accepts what the one that is kept accepts
  have hsupplied : ∀ table : Keyed Float,
      ((Descriptor.firstOccurrences Excluder.descriptor (own ++ excluders trees)).all
        fun excluder => excluder.accepts table.get?) =
      (own ++ excluders trees).all fun excluder => excluder.accepts table.get? := by
    intro table
    rw [Bool.eq_iff_iff, List.all_eq_true, List.all_eq_true]
    apply Descriptor.forall_mem_firstOccurrences_iff
    intro first hfirst second hsecond hsame haccepts
    obtain ⟨haxes, hcontains⟩ := hequal first hfirst second hsecond hsame
    rw [← haccepts, Excluder.accepts, Excluder.accepts, haxes, hcontains]
  have hvalues := hassembled.values_filtered hlawful
  simp only [hsupplied] at hvalues
  refine ⟨composition.emission, Pass.emits_emission hwheels hcomplete, ?_, ?_⟩
  · rw [emission_eq_admitted hkept, ← hvalues]
    exact composition.admitted_perm.map _
  · intro hstraight
    rw [emission_eq_admitted hkept, ← hvalues, admitted,
      course_eq_settings (hleaves ▸ hstraight)]
    rfl

theorem emits_filtered_grid_sampleTrees :
    ∃ inputs composition, ComposerTree.inputs (sampleTrees false) = .ok inputs ∧
      (Composer.ofParts inputs [sampleExcluder ["z", "x"], sampleExcluder ["y"]] []
        none).prepare.1 = .ok composition ∧
      composition.size = 2 ∧ composition.spanning.length = 1 ∧
      ∃ positions : List Position, Source.Emits Pass.pull (Pass.start composition) positions ∧
        positions.map Position.values =
          (grid (leaves (sampleTrees false))).filter fun table =>
            ([sampleExcluder ["z", "x"], sampleExcluder ["y"]] ++
              excluders (sampleTrees false)).all fun excluder => excluder.accepts table.get? := by
  obtain ⟨inputs, hinputs, hany⟩ := Checked.exists_of_any
    (show (ComposerTree.inputs (sampleTrees false)).toOption.any (fun inputs =>
        (Composer.ofParts inputs [sampleExcluder ["z", "x"], sampleExcluder ["y"]] []
          none).prepare.1.toOption.any fun composition =>
            composition.size == 2 && composition.spanning.length == 1) = true by decide +kernel)
  obtain ⟨composition, hprepare, hfacts⟩ := Checked.exists_of_any hany
  rw [Bool.and_eq_true, beq_iff_eq, beq_iff_eq] at hfacts
  have hsupplied : [sampleExcluder ["z", "x"], sampleExcluder ["y"]] ++
      excluders (sampleTrees false) =
        [["z", "x"], ["y"], ["x"], ["y"], ["x"], ["x"]].map sampleExcluder := rfl
  have haxes : ∀ first ∈ [["z", "x"], ["y"], ["x"], ["y"], ["x"], ["x"]],
      ∀ second ∈ [["z", "x"], ["y"], ["x"], ["y"], ["x"], ["x"]],
        ((sampleExcluder first).descriptor == (sampleExcluder second).descriptor) = true →
          first = second := by
    decide +kernel
  obtain ⟨positions, hemits, -, hstraight⟩ := emits_filtered_grid hinputs hprepare rfl
    (lawful_of_mem_sampleTrees false) (by
      rw [hsupplied]
      intro first hfirst second hsecond hsame
      obtain ⟨axes, hmem, rfl⟩ := List.mem_map.mp hfirst
      obtain ⟨others, hmem', rfl⟩ := List.mem_map.mp hsecond
      exact ⟨haxes axes hmem others hmem' hsame, rfl⟩)
  have htail : ∀ leaf ∈ (leaves (sampleTrees false)).tail, leaf.alternate = false := by
    intro leaf hmem
    have hleaves : (leaves (sampleTrees false)).tail =
        [sampleLeaf "y" 2 false, sampleLeaf "z" 2 false] := rfl
    rw [hleaves] at hmem
    simp only [List.mem_cons, List.not_mem_nil, or_false] at hmem
    rcases hmem with rfl | rfl <;> rfl
  exact ⟨inputs, composition, hinputs, hprepare, hfacts.1, hfacts.2, positions, hemits,
    hstraight htail⟩

end ComposerTree

end ScanPath
