import Mathlib.Data.List.Basic
import ScanPath.Composition.Basic
import ScanPath.Proofs.Checked

/-!
# Owners of axes

`claimLeaves` gives every axis the number of its leaf and refuses an axis that
two leaves have, or one leaf twice.  So the table it returns is `ownerFrom?`,
which looks for the first leaf with the axis, and an excluder whose axes have
one owner looks at that leaf only.
-/

namespace ScanPath.Composition

def ownerFrom? : Nat → List Leaf → String → Option Nat
  | _, [], _ => none
  | index, leaf :: leaves, axis =>
      if axis ∈ leaf.axes then some index else ownerFrom? (index + 1) leaves axis

theorem le_of_ownerFrom? {index owner : Nat} {leaves : List Leaf} {axis : String}
    (h : ownerFrom? index leaves axis = some owner) : index ≤ owner := by
  induction leaves generalizing index with
  | nil => cases h
  | cons leaf leaves ih =>
      unfold ownerFrom? at h
      split at h
      · cases h
        exact Nat.le_refl _
      · have hle := ih h
        omega

theorem mem_of_ownerFrom?_self {index : Nat} {leaf : Leaf} {leaves : List Leaf} {axis : String}
    (h : ownerFrom? index (leaf :: leaves) axis = some index) : axis ∈ leaf.axes := by
  unfold ownerFrom? at h
  split at h
  · assumption
  · have hle := le_of_ownerFrom? h
    omega

theorem ownerFrom?_of_lt {index owner : Nat} {leaf : Leaf} {leaves : List Leaf} {axis : String}
    (h : ownerFrom? index (leaf :: leaves) axis = some owner) (hlt : index < owner) :
    axis ∉ leaf.axes ∧ ownerFrom? (index + 1) leaves axis = some owner := by
  unfold ownerFrom? at h
  split at h
  · cases h
    omega
  · constructor
    · assumption
    · exact h

theorem ownerFrom?_isSome_iff {index : Nat} {leaves : List Leaf} {axis : String} :
    (ownerFrom? index leaves axis).isSome = true ↔ axis ∈ leaves.flatMap Leaf.axes := by
  induction leaves generalizing index with
  | nil => simp [ownerFrom?]
  | cons leaf leaves ih =>
      rw [ownerFrom?, List.flatMap_cons, List.mem_append, ← @ih (index + 1)]
      by_cases haxis : axis ∈ leaf.axes
      · simp [haxis]
      · simp [haxis]

theorem ownerFrom?_eq_some_iff {index owner : Nat} {leaves : List Leaf} {axis : String}
    (h : (leaves.flatMap Leaf.axes).Nodup) :
    ownerFrom? index leaves axis = some owner ↔
      index ≤ owner ∧ ∃ leaf, leaves[owner - index]? = some leaf ∧ axis ∈ leaf.axes := by
  induction leaves generalizing index with
  | nil => simp [ownerFrom?]
  | cons leaf leaves ih =>
      rw [List.flatMap_cons, List.nodup_append] at h
      obtain ⟨-, hnodup, hdisjoint⟩ := h
      rw [ownerFrom?]
      by_cases haxis : axis ∈ leaf.axes
      · -- the axis is this leaf's, so no later leaf has it
        rw [if_pos haxis, Option.some.injEq]
        constructor
        · rintro rfl
          exact ⟨Nat.le_refl _, leaf, by simp, haxis⟩
        · rintro ⟨hle, other, hother, hmem⟩
          rcases Nat.eq_or_lt_of_le hle with heq | hlt
          · exact heq
          · rw [List.getElem?_cons, if_neg (by omega)] at hother
            have hlater : axis ∈ leaves.flatMap Leaf.axes :=
              List.mem_flatMap.mpr ⟨other, List.mem_of_getElem? hother, hmem⟩
            exact absurd rfl (hdisjoint axis haxis axis hlater)
      · rw [if_neg haxis, ih hnodup]
        constructor
        · rintro ⟨hle, other, hother, hmem⟩
          refine ⟨by omega, other, ?_, hmem⟩
          rw [List.getElem?_cons, if_neg (by omega), Nat.sub_sub]
          exact hother
        · rintro ⟨hle, other, hother, hmem⟩
          rcases Nat.eq_or_lt_of_le hle with rfl | hlt
          · rw [Nat.sub_self, List.getElem?_cons_zero, Option.some.injEq] at hother
            exact absurd (hother ▸ hmem) haxis
          · rw [List.getElem?_cons, if_neg (by omega), Nat.sub_sub] at hother
            exact ⟨hlt, other, hother, hmem⟩

theorem claimAxes_eq_ok {index : Nat} {owners claimed : Keyed Nat} {axes : List String}
    (h : claimAxes index owners axes = .ok claimed) :
    axes.Nodup ∧ (∀ axis ∈ axes, owners.get? axis = none) ∧
      ∀ axis, claimed.get? axis = if axis ∈ axes then some index else owners.get? axis := by
  induction axes generalizing owners with
  | nil =>
      cases h
      simp
  | cons name axes ih =>
      unfold claimAxes at h
      split at h
      next => cases h
      next hname =>
        obtain ⟨hnodup, hfree, hclaimed⟩ := ih h
        have hnot : name ∉ axes := by
          intro hmem
          have hinsert := hfree name hmem
          rw [Keyed.get?_insert_self] at hinsert
          cases hinsert
        refine ⟨List.nodup_cons.mpr ⟨hnot, hnodup⟩, ?_, ?_⟩
        · intro axis hmem
          rcases List.mem_cons.mp hmem with rfl | hmem
          · exact hname
          · have hne : axis ≠ name := fun heq => hnot (heq ▸ hmem)
            rw [← Keyed.get?_insert_of_ne hne owners index]
            exact hfree axis hmem
        · intro axis
          rw [hclaimed]
          by_cases hmem : axis ∈ axes
          · simp [hmem]
          · by_cases heq : axis = name
            · subst heq
              simp [hmem]
            · simp [hmem, heq, Keyed.get?_insert_of_ne]

theorem claimLeaves_eq_ok {index : Nat} {owners claimed : Keyed Nat} {leaves : List Leaf}
    (h : claimLeaves index owners leaves = .ok claimed) :
    (leaves.flatMap Leaf.axes).Nodup ∧
      (∀ axis ∈ leaves.flatMap Leaf.axes, owners.get? axis = none) ∧
      ∀ axis, claimed.get? axis = (ownerFrom? index leaves axis).or (owners.get? axis) := by
  induction leaves generalizing index owners with
  | nil =>
      cases h
      simp [ownerFrom?]
  | cons leaf leaves ih =>
      obtain ⟨own, hown, h⟩ := Checked.bind_eq_ok.mp h
      obtain ⟨hnodup, hfree, hclaimed⟩ := claimAxes_eq_ok hown
      obtain ⟨hnodup', hfree', hclaimed'⟩ := ih h
      have hdisjoint : ∀ axis ∈ leaves.flatMap Leaf.axes, axis ∉ leaf.axes := by
        intro axis hmem haxis
        have hnone := hfree' axis hmem
        rw [hclaimed, if_pos haxis] at hnone
        cases hnone
      rw [List.flatMap_cons]
      refine ⟨?_, ?_, ?_⟩
      · rw [List.nodup_append]
        refine ⟨hnodup, hnodup', ?_⟩
        rintro axis haxis _ hmem rfl
        exact hdisjoint axis hmem haxis
      · intro axis hmem
        rcases List.mem_append.mp hmem with haxis | hmem
        · exact hfree axis haxis
        · rw [← hfree' axis hmem, hclaimed, if_neg (hdisjoint axis hmem)]
      · intro axis
        rw [hclaimed', hclaimed, ownerFrom?]
        by_cases haxis : axis ∈ leaf.axes
        · -- the axis is this leaf's, so no later one has it
          have hlater : ownerFrom? (index + 1) leaves axis = none := by
            rw [← Option.not_isSome_iff_eq_none, ownerFrom?_isSome_iff]
            exact fun hmem => hdisjoint axis hmem haxis
          simp [haxis, hlater]
        · simp [haxis]

theorem claimLeaves_empty_eq_ok {owners : Keyed Nat} {leaves : List Leaf}
    (h : claimLeaves 0 ∅ leaves = .ok owners) :
    (leaves.flatMap Leaf.axes).Nodup ∧ ∀ axis, owners.get? axis = ownerFrom? 0 leaves axis := by
  obtain ⟨hnodup, -, howners⟩ := claimLeaves_eq_ok h
  refine ⟨hnodup, ?_⟩
  intro axis
  rw [howners, Keyed.get?_empty, Option.or_none]

theorem exists_axis_of_home? {owners : Keyed Nat} {excluder : Excluder} {home : Nat}
    (h : home? owners excluder = some home) :
    ∃ axis ∈ excluder.axes, owners.get? axis = some home := by
  unfold home? at h
  split at h
  next => cases h
  next first others hfirst =>
    split at h
    next =>
      cases h
      exact List.mem_filterMap.mp (hfirst ▸ List.mem_cons_self)
    next => cases h

theorem get?_of_home? {owners : Keyed Nat} {excluder : Excluder} {home : Nat}
    (hknown : ∀ axis ∈ excluder.axes, owners.contains axis = true)
    (h : home? owners excluder = some home) :
    ∀ axis ∈ excluder.axes, owners.get? axis = some home := by
  intro axis hmem
  obtain ⟨owner, howner⟩ := Option.isSome_iff_exists.mp (hknown axis hmem)
  have hlisted : owner ∈ excluder.axes.filterMap owners.get? :=
    List.mem_filterMap.mpr ⟨axis, hmem, howner⟩
  unfold home? at h
  split at h
  next => cases h
  next first others hfirst =>
    rw [hfirst] at hlisted
    split at h
    next hall =>
      cases h
      rw [List.all_eq_true] at hall
      rcases List.mem_cons.mp hlisted with heq | hothers
      · rw [howner, heq]
      · rw [howner, eq_of_beq (hall owner hothers)]
    next => cases h

theorem home?_eq_some_iff {owners : Keyed Nat} {excluder : Excluder} {home : Nat}
    (hknown : ∀ axis ∈ excluder.axes, owners.contains axis = true) :
    home? owners excluder = some home ↔
      excluder.axes ≠ [] ∧ ∀ axis ∈ excluder.axes, owners.get? axis = some home := by
  constructor
  · intro h
    obtain ⟨axis, hmem, -⟩ := exists_axis_of_home? h
    exact ⟨List.ne_nil_of_mem hmem, get?_of_home? hknown h⟩
  · rintro ⟨hne, hall⟩
    have howners : excluder.axes.filterMap owners.get? = excluder.axes.map fun _ => home := by
      rw [← List.filterMap_eq_map]
      apply List.filterMap_congr
      intro axis hmem
      exact hall axis hmem
    obtain ⟨axis, axes, haxes⟩ := List.exists_cons_of_ne_nil hne
    rw [home?, howners, haxes]
    simp

end ScanPath.Composition
