import Mathlib.Data.List.Perm.Basic
import ScanPath.Proofs.Composition.Assembly
import ScanPath.Proofs.Composition.Mask
import ScanPath.Proofs.Composition.Owners
import ScanPath.Proofs.Descriptor

/-!
# Dimensions and the order of the parts

Where an excluder is folded is found by the number of its owner, but which
excluders a leaf takes does not depend on numbers: those with axes that are all
the leaf's own.  So the dimensions of a composition, whatever the order of its
leaves, are the leaves with the masks of these; and a mask does not depend on
the order of its excluders or on which of several alike ones was kept.
-/

namespace ScanPath

def Leaf.absorbs (leaf : Leaf) (excluder : Excluder) : Bool :=
  !excluder.axes.isEmpty && excluder.axes.all (leaf.axes.contains ·)

theorem Leaf.absorbs_iff {leaf : Leaf} {excluder : Excluder} :
    leaf.absorbs excluder = true ↔
      excluder.axes ≠ [] ∧ ∀ axis ∈ excluder.axes, axis ∈ leaf.axes := by
  simp [absorbs]

namespace Composition

private theorem fold_eq_mapIdx_home (owners : Keyed Nat) (excluders : List Excluder) (index : Nat)
    (leaves : List Leaf) :
    fold owners excluders index leaves = leaves.mapIdx fun place leaf =>
      .masked leaf (index + place)
        (excluders.filter fun excluder => home? owners excluder == some (index + place)) := by
  induction leaves generalizing index with
  | nil => rfl
  | cons leaf leaves ih =>
      rw [fold, ih, List.mapIdx_cons]
      simp only [Nat.add_zero, Nat.add_assoc, Nat.add_comm 1]

variable {leaves : List Leaf} {owners : Keyed Nat} {excluders : List Excluder}

theorem home?_eq_some_iff_absorbs (howners : claimLeaves 0 ∅ leaves = .ok owners)
    {excluder : Excluder} (hknown : ∀ axis ∈ excluder.axes, owners.contains axis = true)
    {place : Nat} {leaf : Leaf} (hleaf : leaves[place]? = some leaf) :
    home? owners excluder = some place ↔ leaf.absorbs excluder = true := by
  obtain ⟨hnodup, hget⟩ := claimLeaves_empty_eq_ok howners
  rw [home?_eq_some_iff hknown, Leaf.absorbs_iff]
  apply and_congr_right'
  apply forall₂_congr
  intro axis _
  rw [hget, ownerFrom?_eq_some_iff hnodup, Nat.sub_zero, hleaf]
  simp

theorem fold_eq_mapIdx (howners : claimLeaves 0 ∅ leaves = .ok owners)
    (hknown : ∀ excluder ∈ excluders, ∀ axis ∈ excluder.axes, owners.contains axis = true) :
    fold owners excluders 0 leaves = leaves.mapIdx fun place leaf =>
      .masked leaf place (excluders.filter leaf.absorbs) := by
  rw [fold_eq_mapIdx_home]
  apply List.ext_getElem
  · rw [List.length_mapIdx, List.length_mapIdx]
  · intro place hplace _
    rw [List.length_mapIdx] at hplace
    rw [List.getElem_mapIdx, List.getElem_mapIdx, Nat.zero_add]
    congr 1
    apply List.filter_congr
    intro excluder hmem
    rw [Bool.eq_iff_iff, beq_iff_eq]
    exact home?_eq_some_iff_absorbs howners (hknown excluder hmem)
      (List.getElem?_eq_getElem hplace)

def maskedLength (excluders : List Excluder) (leaf : Leaf) : Nat :=
  (Dimension.masked leaf 0 (excluders.filter leaf.absorbs)).length

theorem map_length_fold (howners : claimLeaves 0 ∅ leaves = .ok owners)
    (hknown : ∀ excluder ∈ excluders, ∀ axis ∈ excluder.axes, owners.contains axis = true) :
    (fold owners excluders 0 leaves).map Dimension.length =
      leaves.map (maskedLength excluders) := by
  rw [fold_eq_mapIdx howners hknown]
  apply List.ext_getElem
  · simp
  · intro place _ _
    simp only [List.getElem_map, List.getElem_mapIdx]
    rfl

end Composition

/-- Both look at the same axes and keep the same coordinates, whatever they are described by. -/
def Excluder.Agrees (first second : Excluder) : Prop :=
  first.axes = second.axes ∧ first.contains = second.contains

theorem Excluder.Agrees.symm {first second : Excluder} (h : first.Agrees second) :
    second.Agrees first :=
  ⟨h.1.symm, h.2.symm⟩

def Excluder.AllFound (first second : List Excluder) : Prop :=
  ∀ excluder ∈ first, ∃ other ∈ second, excluder.Agrees other

theorem Excluder.AllFound.filter {first second : List Excluder} (h : Excluder.AllFound first second)
    {test : Excluder → Bool}
    (htest : ∀ excluder other, excluder.axes = other.axes → test excluder = test other) :
    Excluder.AllFound (first.filter test) (second.filter test) := by
  intro excluder hfilter
  obtain ⟨hmem, hpasses⟩ := List.mem_filter.mp hfilter
  obtain ⟨other, hother, hagrees⟩ := h excluder hmem
  exact ⟨other, List.mem_filter.mpr ⟨hother, htest _ _ hagrees.1 ▸ hpasses⟩, hagrees⟩

theorem Excluder.AllFound.filter_absorbs {first second : List Excluder}
    (h : Excluder.AllFound first second) (leaf : Leaf) :
    Excluder.AllFound (first.filter leaf.absorbs) (second.filter leaf.absorbs) :=
  h.filter fun _ _ haxes => by rw [Leaf.absorbs, Leaf.absorbs, haxes]

theorem Excluder.allFound_firstOccurrences {first second : List Excluder}
    (hsubset : first ⊆ second)
    (hequal : ∀ excluder ∈ second, ∀ other ∈ second,
      (excluder.descriptor == other.descriptor) = true → excluder.Agrees other) :
    Excluder.AllFound (Descriptor.firstOccurrences Excluder.descriptor first)
      (Descriptor.firstOccurrences Excluder.descriptor second) := by
  intro excluder hkept
  have hmem := hsubset (Descriptor.mem_of_mem_firstOccurrencesAfter hkept)
  rcases @Descriptor.kept_or_equal_of_mem _ Excluder.descriptor [] _ _ hmem with
    hself | ⟨descriptor, hlisted, hsame⟩
  · exact ⟨excluder, hself, rfl, rfl⟩
  · rw [List.nil_append, List.mem_map] at hlisted
    obtain ⟨other, hother, rfl⟩ := hlisted
    have hmem' := Descriptor.mem_of_mem_firstOccurrencesAfter hother
    exact ⟨other, hother, (hequal other hmem' excluder hmem hsame).symm⟩

namespace Dimension

variable {leaf : Leaf} {first second : List Excluder}

private theorem all_contains_of_allFound (h : Excluder.AllFound first second)
    {values : List Float}
    (hall : ∀ other ∈ second, other.contains (coordinates values (slots leaf.axes other)) = true) :
    ∀ excluder ∈ first,
      excluder.contains (coordinates values (slots leaf.axes excluder)) = true := by
  intro excluder hmem
  obtain ⟨other, hother, haxes, hcontains⟩ := h excluder hmem
  rw [hcontains, slots, haxes]
  exact hall other hother

theorem mask_congr (h : Excluder.AllFound first second) (h' : Excluder.AllFound second first) :
    mask leaf first = mask leaf second := by
  have hempty : first.isEmpty = second.isEmpty := by
    rw [Bool.eq_iff_iff, List.isEmpty_iff, List.isEmpty_iff]
    constructor
    · rintro rfl
      exact List.eq_nil_iff_forall_not_mem.mpr fun other hmem => by simpa using h' other hmem
    · rintro rfl
      exact List.eq_nil_iff_forall_not_mem.mpr fun other hmem => by simpa using h other hmem
  have hkeeps : keeps leaf (first.map fun excluder => (excluder, slots leaf.axes excluder)) =
      keeps leaf (second.map fun excluder => (excluder, slots leaf.axes excluder)) := by
    funext index
    unfold keeps
    cases leaf.valuesAt index with
    | none => rfl
    | some values =>
        simp only [List.all_map]
        rw [Bool.eq_iff_iff, List.all_eq_true, List.all_eq_true]
        exact ⟨all_contains_of_allFound h', all_contains_of_allFound h⟩
  simp only [mask, hempty, hkeeps]

end Dimension

namespace Composition

theorem maskedLength_congr {first second : List Excluder}
    (h : Excluder.AllFound first second) (h' : Excluder.AllFound second first) :
    maskedLength first = maskedLength second := by
  funext leaf
  rw [maskedLength, maskedLength, Dimension.masked, Dimension.masked,
    Dimension.mask_congr (h.filter_absorbs leaf) (h'.filter_absorbs leaf)]

end Composition

end ScanPath
