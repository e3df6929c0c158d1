import ScanPath.Proofs.Descriptor
import ScanPath.Proofs.Json.Unambiguous

/-!
# The walk that drops duplicates

An item stays when no earlier item of the list, kept or dropped, has an equal
descriptor.  The walk compares with the kept ones only; that is enough, since
every dropped item equals a kept one and equality is transitive.  `Sound` is
what one step of the walk preserves, and the whole walk follows by induction on
the list from its end.
-/

namespace ScanPath

namespace Json

mutual

theorem same_symm : (first second : Json) → same first second = true → same second first = true
  | .null, second, h | .bool _, second, h | .int _, second, h | .string _, second, h => by
      cases second <;> simp_all [same]
  | .float _, second, h => by
      cases second <;> simp only [same, Bool.false_eq_true] at h ⊢
      exact PartialEquivBEq.symm h
  | .array first, second, h => by
      cases second <;> simp only [same, Bool.false_eq_true] at h ⊢
      exact sameItems_symm first _ h
  | .object first, second, h => by
      cases second <;> simp only [same, Bool.false_eq_true] at h ⊢
      exact sameFields_symm first _ h

theorem sameItems_symm : (first second : List Json) → sameItems first second = true →
    sameItems second first = true
  | [], second, h => by
      cases second <;> simp_all [sameItems]
  | item :: items, second, h => by
      cases second <;> simp only [sameItems, Bool.false_eq_true, Bool.and_eq_true] at h ⊢
      exact ⟨same_symm item _ h.1, sameItems_symm items _ h.2⟩

theorem sameFields_symm : (first second : List (String × Json)) →
    sameFields first second = true → sameFields second first = true
  | [], second, h => by
      cases second <;> simp_all [sameFields]
  | (name, value) :: fields, second, h => by
      cases second <;>
        simp only [sameFields, Bool.false_eq_true, Bool.and_eq_true, beq_iff_eq] at h ⊢
      exact ⟨⟨h.1.1.symm, same_symm value _ h.1.2⟩, sameFields_symm fields _ h.2⟩

end

/-- JSON has no floats but finite ones. -/
def Numeric : Json → Prop
  | .float value => value.isFinite = true
  | _ => True

mutual

theorem same_self : (json : Json) → json.Everywhere Numeric → same json json = true
  | .null, _ => rfl
  | .bool _, _ | .int _, _ | .string _, _ => by simp [same]
  | .float _, h => beq_self_of_isFinite h
  | .array items, h => sameItems_self items h.2
  | .object fields, h => sameFields_self fields h.2

theorem sameItems_self : (items : List Json) → EverywhereItems Numeric items →
    sameItems items items = true
  | [], _ => rfl
  | item :: items, h => by
      rw [sameItems, same_self item h.1, sameItems_self items h.2, Bool.and_self]

theorem sameFields_self : (fields : List (String × Json)) → EverywhereFields Numeric fields →
    sameFields fields fields = true
  | [], _ => rfl
  | (name, value) :: fields, h => by
      rw [sameFields, same_self value h.1, sameFields_self fields h.2, beq_self_eq_true,
        Bool.and_self, Bool.and_self]

end

end Json

namespace Descriptor

variable {α : Type} {describe : α → Descriptor}

/-! ## First places -/

def isFirst (describe : α → Descriptor) (items : List α) (index : Nat) : Bool :=
  items[index]?.any fun item => !(items.take index).any fun earlier =>
    describe earlier == describe item

def firstPlaces (describe : α → Descriptor) (items : List α) : List Nat :=
  (List.range items.length).filter (isFirst describe items)

theorem isFirst_append_of_lt {items : List α} {index : Nat} (h : index < items.length) (item : α) :
    isFirst describe (items ++ [item]) index = isFirst describe items index := by
  rw [isFirst, isFirst, List.getElem?_append_left h, List.take_append_of_le_length h.le]

theorem isFirst_append_length (items : List α) (item : α) :
    isFirst describe (items ++ [item]) items.length =
      !items.any fun earlier => describe earlier == describe item := by
  simp [isFirst]

theorem firstPlaces_append (items : List α) (item : α) :
    firstPlaces describe (items ++ [item]) =
      firstPlaces describe items ++
        if items.any fun earlier => describe earlier == describe item then []
        else [items.length] := by
  have hbefore : (List.range items.length).filter (isFirst describe (items ++ [item])) =
      firstPlaces describe items :=
    List.filter_congr fun index hmem => isFirst_append_of_lt (List.mem_range.mp hmem) item
  rw [firstPlaces, List.length_append, List.length_singleton, List.range_succ, List.filter_append,
    hbefore, List.filter_singleton, isFirst_append_length]
  cases items.any fun earlier => describe earlier == describe item <;> rfl

theorem exists_firstPlace {items : List α} {index : Nat} {item : α}
    (h : items[index]? = some item) :
    isFirst describe items index = true ∨
      ∃ earlier < index, isFirst describe items earlier = true ∧
        ∃ first, items[earlier]? = some first ∧ (describe first == describe item) = true := by
  induction index using Nat.strong_induction_on generalizing item with
  | _ index ih =>
      cases hfirst : isFirst describe items index with
      | true => exact .inl rfl
      | false =>
          right
          simp only [isFirst, h, Option.any_some, Bool.not_eq_false', List.any_eq_true] at hfirst
          obtain ⟨other, hmem, hequal⟩ := hfirst
          obtain ⟨earlier, hget⟩ := List.getElem?_of_mem hmem
          obtain ⟨hearlier, hother⟩ : earlier < index ∧ items[earlier]? = some other := by
            rw [List.getElem?_take] at hget
            split at hget
            next hlt => exact ⟨hlt, hget⟩
            next => cases hget
          rcases ih earlier hearlier hother with hplace | ⟨place, hlt, hplace, first, hget, hsame⟩
          · exact ⟨earlier, hearlier, hplace, other, hother, hequal⟩
          · exact ⟨place, hlt.trans hearlier, hplace, first, hget, beq_trans hsame hequal⟩

/-! ## The walk -/

/-- What holds of a walk once it is through the items. -/
structure Sound (describe : α → Descriptor) (items : List α) (sifting : Sifting α) : Prop where
  kept_eq : sifting.kept.map some = (firstPlaces describe items).map (items[·]?)
  seen_eq : sifting.seen = sifting.kept.map describe
  length_eq : sifting.kept.length + sifting.dropped = items.length

theorem Sound.any_seen {items : List α} {sifting : Sifting α} (h : Sound describe items sifting)
    (item : α) : sifting.seen.any (· == describe item) =
      items.any fun earlier => describe earlier == describe item := by
  rw [h.seen_eq, List.any_map, Bool.eq_iff_iff, List.any_eq_true, List.any_eq_true]
  constructor
  · rintro ⟨first, hmem, hequal⟩
    have hplace := h.kept_eq ▸ List.mem_map_of_mem hmem
    obtain ⟨place, -, hget⟩ := List.mem_map.mp hplace
    exact ⟨first, List.mem_of_getElem? hget, hequal⟩
  · rintro ⟨earlier, hmem, hequal⟩
    have hkept : ∀ {place : Nat} {first : α}, isFirst describe items place = true →
        items[place]? = some first → first ∈ sifting.kept := by
      intro place first hplace hget
      have hlt := (List.getElem?_eq_some_iff.mp hget).1
      have hmem := List.mem_map_of_mem (f := (items[·]?))
        (List.mem_filter.mpr ⟨List.mem_range.mpr hlt, hplace⟩)
      rw [← firstPlaces, ← h.kept_eq, hget] at hmem
      exact (List.mem_map_of_injective (Option.some_injective α)).mp hmem
    obtain ⟨index, hget⟩ := List.getElem?_of_mem hmem
    rcases exists_firstPlace hget with hplace | ⟨place, -, hplace, first, hfirst, hsame⟩
    · exact ⟨earlier, hkept hplace hget, hequal⟩
    · exact ⟨first, hkept hplace hfirst, beq_trans hsame hequal⟩

theorem Sound.sift {items : List α} {sifting : Sifting α} (h : Sound describe items sifting)
    (item : α) : Sound describe (items ++ [item]) (sift describe sifting item) := by
  have hbefore : (firstPlaces describe items).map ((items ++ [item])[·]?) =
      sifting.kept.map some := by
    rw [h.kept_eq]
    apply List.map_congr_left
    intro index hmem
    exact List.getElem?_append_left (List.mem_range.mp (List.mem_filter.mp hmem).1)
  have hlength := h.length_eq
  unfold Descriptor.sift
  split
  next hseen =>
    have hany := (h.any_seen item).symm.trans hseen
    refine ⟨?_, h.seen_eq, ?_⟩
    · rw [firstPlaces_append, if_pos hany, List.append_nil, hbefore]
    · rw [List.length_append, List.length_singleton, ← hlength, Nat.add_assoc]
  next hseen =>
    rw [h.any_seen item] at hseen
    refine ⟨?_, ?_, ?_⟩
    · rw [firstPlaces_append, if_neg hseen, List.map_append, List.map_append, hbefore]
      simp
    · simp [h.seen_eq]
    · simp only [List.length_append, List.length_singleton]
      omega

theorem sifted_append (items : List α) (item : α) :
    sifted describe (items ++ [item]) = sift describe (sifted describe items) item := by
  rw [sifted, sifted, List.foldl_append]
  rfl

theorem sifted_sound (items : List α) : Sound describe items (sifted describe items) := by
  induction items using List.reverseRecOn with
  | nil => exact ⟨rfl, rfl, rfl⟩
  | append_singleton items item ih => exact sifted_append items item ▸ ih.sift item

theorem firstOccurrencesAfter_congr {seen others : List Descriptor}
    (h : ∀ descriptor, seen.any (· == descriptor) = others.any (· == descriptor))
    (items : List α) :
    firstOccurrencesAfter describe seen items = firstOccurrencesAfter describe others items := by
  induction items generalizing seen others with
  | nil => rfl
  | cons item items ih =>
      simp only [firstOccurrencesAfter, h]
      split
      · exact ih h
      · congr 1
        apply ih
        intro descriptor
        rw [List.any_cons, List.any_cons, h]

theorem foldl_sift (items : List α) (sifting : Sifting α) :
    (items.foldl (sift describe) sifting).kept =
      sifting.kept ++ firstOccurrencesAfter describe sifting.seen items := by
  induction items generalizing sifting with
  | nil => exact (List.append_nil _).symm
  | cons item items ih =>
      rw [List.foldl_cons, ih, firstOccurrencesAfter, sift]
      split
      · rfl
      · rw [List.append_assoc, List.singleton_append]
        congr 2
        apply firstOccurrencesAfter_congr
        intro descriptor
        rw [List.any_append, List.any_cons, List.any_nil, Bool.or_false, List.any_cons,
          Bool.or_comm]

theorem kept_sifted (items : List α) :
    (sifted describe items).kept = firstOccurrences describe items :=
  foldl_sift items ⟨[], [], 0⟩

theorem firstOccurrences_sublist (seen : List Descriptor) (items : List α) :
    (firstOccurrencesAfter describe seen items).Sublist items := by
  induction items generalizing seen with
  | nil => exact List.Sublist.slnil
  | cons item items ih =>
      unfold firstOccurrencesAfter
      split
      · exact (ih _).cons _
      · exact (ih _).cons_cons _

theorem beq_symm {first second : Descriptor} (h : (first == second) = true) :
    (second == first) = true :=
  Json.same_symm _ _ h

/-- The items that stay are those at the first places of their descriptors, in the order of the
list.  No two of them are equal, every item equals the one at its first place, and those that do not
stay are counted.  A second walk drops nothing more, and walks through parts of a list make no
difference to what stays of the whole. -/
theorem sifted_firstPlaces {items : List α}
    (h : ∀ item ∈ items, (describe item).value.Everywhere Json.Numeric) :
    let sifting := sifted describe items
    sifting.kept = firstOccurrences describe items ∧
    sifting.kept.map some = (firstPlaces describe items).map (items[·]?) ∧
    sifting.kept.Sublist items ∧
    (sifting.kept.Pairwise fun first second =>
      (describe first == describe second) = false ∧
        (describe second == describe first) = false) ∧
    (∀ (index : Nat) item, items[index]? = some item →
      ∃ place ≤ index, place ∈ firstPlaces describe items ∧
        ∃ first, items[place]? = some first ∧ (describe first == describe item) = true) ∧
    sifting.kept.length + sifting.dropped = items.length ∧
    (sifted describe sifting.kept).kept = sifting.kept ∧
    ∀ others rest : List α,
      (sifted describe (items ++ (sifted describe others).kept ++
        (sifted describe rest).kept)).kept =
      (sifted describe (items ++ others ++ rest)).kept := by
  intro sifting
  have hsound : Sound describe items sifting := sifted_sound items
  have hkept : sifting.kept = firstOccurrences describe items := kept_sifted items
  refine ⟨hkept, hsound.kept_eq, ?_, ?_, ?_, hsound.length_eq, ?_, ?_⟩
  · rw [hkept]
    exact firstOccurrences_sublist [] items
  · rw [hkept]
    refine (firstOccurrencesAfter_pairwise [] items).imp ?_
    intro first second hdiffer
    exact ⟨hdiffer, Bool.eq_false_iff.mpr fun hequal =>
      Bool.eq_false_iff.mp hdiffer (beq_symm hequal)⟩
  · intro index item hget
    have hlt := (List.getElem?_eq_some_iff.mp hget).1
    rcases exists_firstPlace hget with hfirst | ⟨place, hplace, hfirst, first, hgot, hequal⟩
    · exact ⟨index, Nat.le_refl _, List.mem_filter.mpr ⟨List.mem_range.mpr hlt, hfirst⟩, item, hget,
        Json.same_self _ (h item (List.mem_of_getElem? hget))⟩
    · exact ⟨place, hplace.le, List.mem_filter.mpr ⟨List.mem_range.mpr (hplace.trans hlt), hfirst⟩,
        first, hgot, hequal⟩
  · rw [kept_sifted, hkept]
    exact keptAlike_firstOccurrences items []
  · intro others rest
    simp only [kept_sifted]
    exact ((KeptAlike.refl items).append (keptAlike_firstOccurrences others)).append
      (keptAlike_firstOccurrences rest) []

def zeroValues : List Descriptor := [⟨.float 0.0⟩, ⟨.int 0⟩, ⟨.float (-0.0)⟩, ⟨.float 1.5⟩]

theorem sifted_firstPlaces_zeroValues :
    (sifted id zeroValues).kept.length + (sifted id zeroValues).dropped = 4 ∧
      (sifted id zeroValues).kept.Sublist zeroValues ∧
      (∃ place ≤ 2, place ∈ firstPlaces id zeroValues ∧ ∃ first, zeroValues[place]? = some first ∧
        (first == ⟨.float (-0.0)⟩) = true) ∧
      (sifted id zeroValues).dropped = 1 := by
  have hnumeric : ∀ item ∈ zeroValues, (id item).value.Everywhere Json.Numeric := by
    intro item hmem
    simp only [zeroValues, List.mem_cons, List.not_mem_nil, or_false] at hmem
    rcases hmem with rfl | rfl | rfl | rfl
    · exact (by decide : (0.0 : Float).isFinite = true)
    · trivial
    · exact (by decide : (-0.0 : Float).isFinite = true)
    · exact (by decide : (1.5 : Float).isFinite = true)
  obtain ⟨-, -, hsublist, -, hplaces, hlength, -⟩ := sifted_firstPlaces hnumeric
  exact ⟨hlength, hsublist, hplaces 2 ⟨.float (-0.0)⟩ rfl, rfl⟩

end Descriptor

end ScanPath
