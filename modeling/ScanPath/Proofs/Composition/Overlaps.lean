import Mathlib.Data.List.Nodup
import ScanPath.Proofs.Composition.Owners

/-!
# Overlapping axes

Owners are claimed declaration by declaration, leaf after leaf.  What a refused
claim names is read off the declarations before it: no axis occurs twice among
them, and the owner of each is the leaf that declared it.  So the first claim
to an axis that is taken is the first declaration that an earlier leaf made
too, as long as no leaf repeats an axis of its own.
-/

namespace ScanPath.Composition

def declarations (leaves : List Leaf) : List (String × Nat) :=
  leaves.zipIdx.flatMap fun (leaf, place) => leaf.axes.map (·, place)

def declaredBefore (leaves : List Leaf) (declaration : String × Nat) : Bool :=
  (leaves.take declaration.2).any (·.axes.contains declaration.1)

/-- The first declaration whose axis an earlier leaf has is that of leaf `second`, and leaf
`first` is the earlier one. -/
structure FirstOverlap (leaves : List Leaf) (axis : String) (first second : Nat) : Prop where
  found : (declarations leaves).find? (declaredBefore leaves) = some (axis, second)
  earlier : first < second
  declared : (axis, first) ∈ declarations leaves

def Overlapping (leaves : List Leaf) : Prop :=
  ¬ leaves.Pairwise fun first second => first.axes.Disjoint second.axes

theorem mem_declarations {leaves : List Leaf} {axis : String} {place : Nat} :
    (axis, place) ∈ declarations leaves ↔
      ∃ leaf, leaves[place]? = some leaf ∧ axis ∈ leaf.axes := by
  simp only [declarations, List.mem_flatMap, List.mem_map, Prod.exists, Prod.mk.injEq,
    List.mem_zipIdx_iff_getElem?]
  constructor
  · rintro ⟨leaf, _, hleaf, _, haxis, rfl, rfl⟩
    exact ⟨leaf, hleaf, haxis⟩
  · rintro ⟨leaf, hleaf, haxis⟩
    exact ⟨leaf, place, hleaf, axis, haxis, rfl, rfl⟩

theorem map_fst_declarations (leaves : List Leaf) :
    (declarations leaves).map Prod.fst = leaves.flatMap Leaf.axes := by
  rw [declarations, List.map_flatMap]
  simp only [List.map_map, Function.comp_def, List.map_id']
  rw [← List.flatMap_map Prod.fst Leaf.axes, List.zipIdx_map_fst]

theorem declarations_ordered {leaves : List Leaf} (h : ∀ leaf ∈ leaves, leaf.axes.Nodup) :
    (declarations leaves).Pairwise fun first second =>
      first.2 ≤ second.2 ∧ (first.2 = second.2 → first.1 ≠ second.1) := by
  have hplaces : leaves.zipIdx.Pairwise fun first second => first.2 < second.2 := by
    rw [← List.pairwise_map (f := Prod.snd) (R := (· < ·)), List.zipIdx_map_snd]
    exact List.pairwise_lt_range'
  rw [declarations, List.pairwise_flatMap]
  constructor
  · rintro ⟨leaf, place⟩ hmem
    rw [List.pairwise_map]
    refine (h leaf (List.fst_mem_of_mem_zipIdx hmem)).imp ?_
    intro first second hne
    exact ⟨Nat.le_refl _, fun _ => hne⟩
  · refine hplaces.imp ?_
    rintro ⟨leaf, place⟩ ⟨other, later⟩ hlt _ hfirst _ hsecond
    obtain ⟨axis, -, rfl⟩ := List.mem_map.mp hfirst
    obtain ⟨name, -, rfl⟩ := List.mem_map.mp hsecond
    exact ⟨Nat.le_of_lt hlt, fun heq => absurd heq (Nat.ne_of_lt hlt)⟩

theorem declaredBefore_iff {leaves : List Leaf} {axis : String} {place : Nat} :
    declaredBefore leaves (axis, place) = true ↔
      ∃ first < place, (axis, first) ∈ declarations leaves := by
  rw [declaredBefore, List.any_eq_true]
  constructor
  · rintro ⟨leaf, hleaf, haxis⟩
    obtain ⟨first, hfirst⟩ := List.mem_iff_getElem?.mp hleaf
    rw [List.getElem?_take] at hfirst
    split at hfirst
    next hlt => exact ⟨first, hlt, mem_declarations.mpr ⟨leaf, hfirst, by simpa using haxis⟩⟩
    next => cases hfirst
  · rintro ⟨first, hlt, hmem⟩
    obtain ⟨leaf, hleaf, haxis⟩ := mem_declarations.mp hmem
    refine ⟨leaf, List.mem_iff_getElem?.mpr ⟨first, ?_⟩, by simpa using haxis⟩
    rw [List.getElem?_take, if_pos hlt, hleaf]

private def claimAll : Keyed Nat → List (String × Nat) → Except Cause (Keyed Nat)
  | owners, [] => .ok owners
  | owners, (axis, place) :: claims =>
      match owners.get? axis with
      | some first => .error (.overlappingAxes axis first place)
      | none => claimAll (owners.insert axis place) claims

private structure Records (owners : Keyed Nat) (claims : List (String × Nat)) : Prop where
  nodup : (claims.map Prod.fst).Nodup
  get?_iff : ∀ axis place, owners.get? axis = some place ↔ (axis, place) ∈ claims

/-- All claims are held, or the ones before the first to an axis that is taken. -/
private inductive Settled (claims : List (String × Nat)) : Except Cause (Keyed Nat) → Prop
  | all {owners : Keyed Nat} (held : Records owners claims) : Settled claims (.ok owners)
  | taken {before after : List (String × Nat)} {axis : String} {first second : Nat}
      {owners : Keyed Nat} (split : claims = before ++ (axis, second) :: after)
      (held : Records owners before) (owned : (axis, first) ∈ before) :
      Settled claims (.error (.overlappingAxes axis first second))

private theorem Records.insert {owners : Keyed Nat} {claims : List (String × Nat)}
    (h : Records owners claims) {axis : String} (hfree : owners.get? axis = none) (place : Nat) :
    Records (owners.insert axis place) (claims ++ [(axis, place)]) := by
  have hnew : axis ∉ claims.map Prod.fst := by
    intro hmem
    obtain ⟨⟨_, other⟩, hclaim, rfl⟩ := List.mem_map.mp hmem
    rw [(h.get?_iff _ other).mpr hclaim] at hfree
    cases hfree
  constructor
  · rw [List.map_append, List.nodup_append]
    refine ⟨h.nodup, by simp, ?_⟩
    intro name hmem _ hlast rfl
    rw [List.mem_singleton.mp hlast] at hmem
    exact hnew hmem
  · intro name other
    rw [List.mem_append, List.mem_singleton, Prod.mk.injEq]
    by_cases heq : name = axis
    · subst heq
      have hnone : (name, other) ∉ claims := fun hclaim => hnew (List.mem_map_of_mem hclaim)
      simp [hnone, eq_comm]
    · rw [Keyed.get?_insert_of_ne heq, h.get?_iff]
      simp [heq]

private theorem claimAll_settled {owners : Keyed Nat} {done : List (String × Nat)}
    (h : Records owners done) (claims : List (String × Nat)) :
    Settled (done ++ claims) (claimAll owners claims) := by
  induction claims generalizing owners done with
  | nil =>
      rw [List.append_nil]
      exact .all h
  | cons claim claims ih =>
      obtain ⟨axis, place⟩ := claim
      rw [claimAll]
      split
      next first hfirst => exact .taken rfl h ((h.get?_iff axis first).mp hfirst)
      next hfree =>
        have hrest := ih (h.insert hfree place)
        rwa [List.append_assoc] at hrest

private theorem claimAxes_bind_claimAll (index : Nat) (owners : Keyed Nat) (axes : List String)
    (claims : List (String × Nat)) :
    (claimAxes index owners axes >>= fun own => claimAll own claims) =
      claimAll owners (axes.map (·, index) ++ claims) := by
  induction axes generalizing owners with
  | nil => rfl
  | cons axis axes ih =>
      rw [List.map_cons, List.cons_append, claimAxes, claimAll]
      cases hget : owners.get? axis with
      | some first => rfl
      | none => exact ih _

private theorem claimLeaves_eq_claimAll (index : Nat) (owners : Keyed Nat) (leaves : List Leaf) :
    claimLeaves index owners leaves =
      claimAll owners ((leaves.zipIdx index).flatMap fun (leaf, place) =>
        leaf.axes.map (·, place)) := by
  induction leaves generalizing index owners with
  | nil => rfl
  | cons leaf leaves ih =>
      rw [List.zipIdx_cons, List.flatMap_cons, ← claimAxes_bind_claimAll, claimLeaves]
      simp only [ih]

private theorem claimLeaves_settled (leaves : List Leaf) :
    Settled (declarations leaves) (claimLeaves 0 ∅ leaves) := by
  have hempty : Records ∅ [] := ⟨List.nodup_nil, by simp⟩
  rw [claimLeaves_eq_claimAll]
  exact claimAll_settled hempty (declarations leaves)

private theorem owner_unique {leaves : List Leaf} (h : ∀ leaf ∈ leaves, leaf.axes.Nodup)
    {before after : List (String × Nat)} {axis : String} {second : Nat}
    (hsplit : declarations leaves = before ++ (axis, second) :: after)
    (hnodup : (before.map Prod.fst).Nodup) {name : String} {place other : Nat}
    (hlt : place < second) (hmem : (name, place) ∈ declarations leaves)
    (hother : (name, other) ∈ before) : place = other := by
  have hordered := declarations_ordered h
  rw [hsplit, List.pairwise_append, List.pairwise_cons] at hordered
  have hbefore : (name, place) ∈ before := by
    rw [hsplit] at hmem
    rcases List.mem_append.mp hmem with hmem | hmem
    · exact hmem
    · rcases List.mem_cons.mp hmem with heq | hmem
      · cases heq
        exact absurd hlt (Nat.lt_irrefl _)
      · have hle := (hordered.2.1.1 _ hmem).1
        omega
  exact congrArg Prod.snd (List.inj_on_of_nodup_map hnodup hbefore hother rfl)

private theorem overlap_of_taken {leaves : List Leaf} (h : ∀ leaf ∈ leaves, leaf.axes.Nodup)
    {before after : List (String × Nat)} {axis : String} {first second : Nat}
    (hsplit : declarations leaves = before ++ (axis, second) :: after)
    (hnodup : (before.map Prod.fst).Nodup) (howned : (axis, first) ∈ before) :
    FirstOverlap leaves axis first second := by
  have hordered := declarations_ordered h
  rw [hsplit, List.pairwise_append] at hordered
  obtain ⟨-, -, hacross⟩ := hordered
  obtain ⟨hle, hne⟩ := hacross _ howned _ List.mem_cons_self
  have hlt : first < second := Nat.lt_of_le_of_ne hle fun heq => hne heq rfl
  have hdeclared : (axis, first) ∈ declarations leaves :=
    hsplit ▸ List.mem_append_left _ howned
  refine ⟨?_, hlt, hdeclared⟩
  rw [List.find?_eq_some_iff_append]
  refine ⟨declaredBefore_iff.mpr ⟨first, hlt, hdeclared⟩, before, after, hsplit, ?_⟩
  rintro ⟨name, later⟩ hmem
  rw [Bool.not_eq_true', Bool.eq_false_iff]
  intro hearlier
  obtain ⟨place, hplace, hmem'⟩ := declaredBefore_iff.mp hearlier
  have hlater : later ≤ second := (hacross _ hmem _ List.mem_cons_self).1
  have heq := owner_unique h hsplit hnodup (Nat.lt_of_lt_of_le hplace hlater) hmem' hmem
  omega

theorem apart_of_claimLeaves {leaves : List Leaf} {owners : Keyed Nat}
    (h : claimLeaves 0 ∅ leaves = .ok owners) : ¬ Overlapping leaves := by
  rw [Overlapping, not_not]
  exact (List.nodup_flatMap.mp (claimLeaves_empty_eq_ok h).1).2

theorem exists_claimLeaves {leaves : List Leaf} (h : ∀ leaf ∈ leaves, leaf.axes.Nodup)
    (hapart : ¬ Overlapping leaves) : ∃ owners, claimLeaves 0 ∅ leaves = .ok owners := by
  rw [Overlapping, not_not] at hapart
  have hnodup : (leaves.flatMap Leaf.axes).Nodup := List.nodup_flatMap.mpr ⟨h, hapart⟩
  rw [← map_fst_declarations] at hnodup
  have hsettled := claimLeaves_settled leaves
  generalize claimLeaves 0 ∅ leaves = result at hsettled ⊢
  cases hsettled with
  | all held => exact ⟨_, rfl⟩
  | taken split held owned =>
      rw [split, List.map_append, List.nodup_append] at hnodup
      exact absurd rfl (hnodup.2.2 _ (List.mem_map_of_mem owned) _ List.mem_cons_self)

theorem overlap_of_claimLeaves {leaves : List Leaf} {cause : Cause}
    (h : claimLeaves 0 ∅ leaves = .error cause) :
    ∃ axis first second, cause = .overlappingAxes axis first second ∧
      ((∀ leaf ∈ leaves, leaf.axes.Nodup) → FirstOverlap leaves axis first second) := by
  have hsettled := claimLeaves_settled leaves
  rw [h] at hsettled
  cases hsettled with
  | taken split held owned =>
      exact ⟨_, _, _, rfl, fun hleaves => overlap_of_taken hleaves split held.nodup owned⟩

theorem claimLeaves_of_overlap {leaves : List Leaf} (h : ∀ leaf ∈ leaves, leaf.axes.Nodup)
    {axis : String} {first second : Nat} (hoverlap : FirstOverlap leaves axis first second) :
    claimLeaves 0 ∅ leaves = .error (.overlappingAxes axis first second) := by
  have hsettled := claimLeaves_settled leaves
  generalize claimLeaves 0 ∅ leaves = result at hsettled ⊢
  cases hsettled with
  | all held =>
      have hlater := List.mem_of_find?_eq_some hoverlap.found
      have heq := List.inj_on_of_nodup_map held.nodup hoverlap.declared hlater rfl
      exact absurd (congrArg Prod.snd heq) (Nat.ne_of_lt hoverlap.earlier)
  | taken split held owned =>
      cases hoverlap.found.symm.trans (overlap_of_taken h split held.nodup owned).found
      rw [owner_unique h split held.nodup hoverlap.earlier hoverlap.declared owned]

theorem overlapping_iff_exists {leaves : List Leaf} (h : ∀ leaf ∈ leaves, leaf.axes.Nodup) :
    Overlapping leaves ↔ ∃ axis first second, FirstOverlap leaves axis first second := by
  cases hclaims : claimLeaves 0 ∅ leaves with
  | ok owners =>
      have hapart := apart_of_claimLeaves hclaims
      constructor
      · intro hoverlapping
        exact absurd hoverlapping hapart
      · rintro ⟨axis, first, second, hoverlap⟩
        rw [claimLeaves_of_overlap h hoverlap] at hclaims
        cases hclaims
  | error cause =>
      obtain ⟨axis, first, second, -, hoverlap⟩ := overlap_of_claimLeaves hclaims
      refine ⟨fun _ => ⟨axis, first, second, hoverlap h⟩, fun _ => ?_⟩
      intro hdisjoint
      obtain ⟨owners, howners⟩ := exists_claimLeaves h (not_not.mpr hdisjoint)
      rw [hclaims] at howners
      cases howners

end ScanPath.Composition
