import Mathlib
import ScanPath.Descriptor

/-!
# Duplicates

Descriptors are compared as JSON values, and floats in them as numbers, so a
descriptor may equal another one that is not the same.  This equality is
transitive all the same, and that is what keeping first occurrences rests on:
duplicates that were dropped from a part of a list before make no difference to
what is kept of the whole.
-/

namespace ScanPath

namespace Json

mutual

theorem same_trans : (first second third : Json) → same first second = true →
    same second third = true → same first third = true
  | .null, second, third, h, h' => by
      cases second <;> simp [same] at h
      exact h'
  | .bool _, second, third, h, h' => by
      cases second <;> simp [same] at h
      exact h ▸ h'
  | .int _, second, third, h, h' => by
      cases second <;> simp [same] at h
      exact h ▸ h'
  | .float _, second, third, h, h' => by
      cases second <;> simp only [same, Bool.false_eq_true] at h
      cases third <;> simp only [same, Bool.false_eq_true] at h'
      exact PartialEquivBEq.trans h h'
  | .string _, second, third, h, h' => by
      cases second <;> simp [same] at h
      exact h ▸ h'
  | .array first, second, third, h, h' => by
      cases second <;> simp only [same, Bool.false_eq_true] at h
      cases third <;> simp only [same, Bool.false_eq_true] at h'
      exact sameItems_trans first _ _ h h'
  | .object first, second, third, h, h' => by
      cases second <;> simp only [same, Bool.false_eq_true] at h
      cases third <;> simp only [same, Bool.false_eq_true] at h'
      exact sameFields_trans first _ _ h h'

theorem sameItems_trans : (first second third : List Json) → sameItems first second = true →
    sameItems second third = true → sameItems first third = true
  | [], second, third, h, h' => by
      cases second <;> simp [sameItems] at h
      exact h'
  | item :: items, second, third, h, h' => by
      cases second <;> simp only [sameItems, Bool.false_eq_true, Bool.and_eq_true] at h
      cases third <;> simp only [sameItems, Bool.false_eq_true, Bool.and_eq_true] at h' ⊢
      exact ⟨same_trans item _ _ h.1 h'.1, sameItems_trans items _ _ h.2 h'.2⟩

theorem sameFields_trans : (first second third : List (String × Json)) →
    sameFields first second = true → sameFields second third = true →
    sameFields first third = true
  | [], second, third, h, h' => by
      cases second <;> simp [sameFields] at h
      exact h'
  | (name, value) :: fields, second, third, h, h' => by
      cases second <;>
        simp only [sameFields, Bool.false_eq_true, Bool.and_eq_true, beq_iff_eq] at h
      cases third <;>
        simp only [sameFields, Bool.false_eq_true, Bool.and_eq_true, beq_iff_eq] at h' ⊢
      exact ⟨⟨h.1.1.trans h'.1.1, same_trans value _ _ h.1.2 h'.1.2⟩,
        sameFields_trans fields _ _ h.2 h'.2⟩

end

end Json

namespace Descriptor

theorem beq_trans {first second third : Descriptor} (h : (first == second) = true)
    (h' : (second == third) = true) : (first == third) = true :=
  Json.same_trans _ _ _ h h'

variable {α : Type} (describe : α → Descriptor)

theorem firstOccurrencesAfter_append (seen : List Descriptor) (first second : List α) :
    firstOccurrencesAfter describe seen (first ++ second) =
      firstOccurrencesAfter describe seen first ++
        firstOccurrencesAfter describe
          (((firstOccurrencesAfter describe seen first).map describe).reverse ++ seen) second := by
  induction first generalizing seen with
  | nil => rfl
  | cons item items ih =>
      by_cases hseen : seen.any (· == describe item)
      · simp only [List.cons_append, firstOccurrencesAfter, hseen, if_true, ih]
      · simp [firstOccurrencesAfter, hseen, ih]

/-- Two lists of which the same is kept, whatever was seen before. -/
def KeptAlike (first second : List α) : Prop :=
  ∀ seen, firstOccurrencesAfter describe seen first = firstOccurrencesAfter describe seen second

variable {describe}

theorem KeptAlike.refl (items : List α) : KeptAlike describe items items := fun _ => rfl

theorem KeptAlike.trans {first second third : List α} (h : KeptAlike describe first second)
    (h' : KeptAlike describe second third) : KeptAlike describe first third :=
  fun seen => (h seen).trans (h' seen)

theorem KeptAlike.append {first second others rest : List α}
    (h : KeptAlike describe first second) (h' : KeptAlike describe others rest) :
    KeptAlike describe (first ++ others) (second ++ rest) := by
  intro seen
  rw [firstOccurrencesAfter_append, firstOccurrencesAfter_append, h seen, h' _]

/-- What one pass drops the next one would drop too: it equals an item that the next one keeps, or
that equals one kept before. -/
private theorem firstOccurrencesAfter_absorb (items : List α) {inner outer : List Descriptor}
    (h : ∀ descriptor, inner.any (· == descriptor) → outer.any (· == descriptor)) :
    firstOccurrencesAfter describe outer (firstOccurrencesAfter describe inner items) =
      firstOccurrencesAfter describe outer items := by
  induction items generalizing inner outer with
  | nil => rfl
  | cons item items ih =>
      by_cases hinner : inner.any (· == describe item)
      · have houter := h _ hinner
        simp only [firstOccurrencesAfter, hinner, houter, if_true]
        exact ih h
      · by_cases houter : outer.any (· == describe item)
        · simp only [firstOccurrencesAfter, hinner, houter, if_true, Bool.false_eq_true, if_false]
          apply ih
          intro descriptor hany
          rw [List.any_cons, Bool.or_eq_true] at hany
          rcases hany with hitem | hany
          · obtain ⟨earlier, hmem, hearlier⟩ := List.any_eq_true.mp houter
            exact List.any_eq_true.mpr ⟨earlier, hmem, beq_trans hearlier hitem⟩
          · exact h _ hany
        · simp only [firstOccurrencesAfter, hinner, houter, Bool.false_eq_true, if_false]
          congr 1
          apply ih
          intro descriptor hany
          rw [List.any_cons, Bool.or_eq_true] at hany ⊢
          exact hany.imp_right (h _)

theorem keptAlike_firstOccurrences (items : List α) :
    KeptAlike describe (firstOccurrences describe items) items :=
  fun _ => firstOccurrencesAfter_absorb items fun _ h => by simp at h

theorem mem_of_mem_firstOccurrencesAfter {seen : List Descriptor} {items : List α} {item : α}
    (h : item ∈ firstOccurrencesAfter describe seen items) : item ∈ items := by
  induction items generalizing seen with
  | nil => exact h
  | cons other items ih =>
      unfold firstOccurrencesAfter at h
      split at h
      · exact List.mem_cons_of_mem _ (ih h)
      · rcases List.mem_cons.mp h with rfl | h
        · exact List.mem_cons_self
        · exact List.mem_cons_of_mem _ (ih h)

theorem kept_or_equal_of_mem {seen : List Descriptor} {items : List α} {item : α}
    (h : item ∈ items) :
    item ∈ firstOccurrencesAfter describe seen items ∨
      ∃ earlier ∈ seen ++ (firstOccurrencesAfter describe seen items).map describe,
        (earlier == describe item) = true := by
  induction items generalizing seen with
  | nil => cases h
  | cons other items ih =>
      unfold firstOccurrencesAfter
      split
      next hseen =>
        rcases List.mem_cons.mp h with rfl | h
        · obtain ⟨earlier, hmem, hequal⟩ := List.any_eq_true.mp hseen
          exact .inr ⟨earlier, List.mem_append_left _ hmem, hequal⟩
        · exact ih h
      next hseen =>
        rcases List.mem_cons.mp h with rfl | h
        · exact .inl List.mem_cons_self
        · rcases @ih (describe other :: seen) h with hkept | ⟨earlier, hmem, hequal⟩
          · exact .inl (List.mem_cons_of_mem _ hkept)
          · refine .inr ⟨earlier, ?_, hequal⟩
            simp only [List.cons_append, List.mem_cons, List.mem_append, List.map_cons] at hmem ⊢
            rcases hmem with h | h | h
            · exact .inr (.inl h)
            · exact .inl h
            · exact .inr (.inr h)

theorem forall_mem_firstOccurrences_iff {items : List α} {property : α → Prop}
    (h : ∀ first ∈ items, ∀ second ∈ items, (describe first == describe second) = true →
      property first → property second) :
    (∀ item ∈ firstOccurrences describe items, property item) ↔ ∀ item ∈ items, property item := by
  constructor
  · intro hkept item hmem
    rcases @kept_or_equal_of_mem _ describe [] _ _ hmem with hitem | ⟨earlier, hmem', hequal⟩
    · exact hkept item hitem
    · rw [List.nil_append, List.mem_map] at hmem'
      obtain ⟨first, hfirst, rfl⟩ := hmem'
      exact h first (mem_of_mem_firstOccurrencesAfter hfirst) item hmem hequal (hkept first hfirst)
  · intro hall item hmem
    exact hall item (mem_of_mem_firstOccurrencesAfter hmem)

theorem not_seen_of_mem_firstOccurrencesAfter {seen : List Descriptor} {items : List α} {item : α}
    (h : item ∈ firstOccurrencesAfter describe seen items) :
    ∀ earlier ∈ seen, (earlier == describe item) = false := by
  induction items generalizing seen with
  | nil => cases h
  | cons other items ih =>
      unfold firstOccurrencesAfter at h
      split at h
      next => exact ih h
      next hseen =>
        intro earlier hmem
        rcases List.mem_cons.mp h with rfl | h
        · exact Bool.eq_false_iff.mpr fun hequal => hseen (List.any_eq_true.mpr ⟨_, hmem, hequal⟩)
        · exact ih h earlier (List.mem_cons_of_mem _ hmem)

theorem firstOccurrencesAfter_pairwise (seen : List Descriptor) (items : List α) :
    (firstOccurrencesAfter describe seen items).Pairwise fun first second =>
      (describe first == describe second) = false := by
  induction items generalizing seen with
  | nil => exact .nil
  | cons item items ih =>
      unfold firstOccurrencesAfter
      split
      · exact ih seen
      · rw [List.pairwise_cons]
        refine ⟨?_, ih _⟩
        intro later hlater
        exact not_seen_of_mem_firstOccurrencesAfter hlater _ List.mem_cons_self

end Descriptor

end ScanPath
