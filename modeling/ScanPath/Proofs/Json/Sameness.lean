import ScanPath.Excluder
import ScanPath.Proofs.Binary64
import ScanPath.Proofs.Json

/-!
# Equal values and their texts

Values are compared with floats as numbers, and printed with floats as they are
stored.  The two agree except for the sign of a zero: values that compare equal
are the same once the zeros have lost their signs, and they have one text
exactly when they are the same with the signs.  Texts are compared with anything
written behind them, so the parts of an array or an object can be taken off one
by one.
-/

namespace ScanPath

namespace Json

def unsignedZero (x : Float) : Float := if x == 0.0 then 0.0 else x

mutual

/-- The value with `0.0` for every `-0.0` in it. -/
def unsigned : Json → Json
  | .float value => .float (unsignedZero value)
  | .array items => .array (unsignedItems items)
  | .object fields => .object (unsignedFields fields)
  | .null => .null
  | .bool value => .bool value
  | .int value => .int value
  | .string value => .string value

def unsignedItems : List Json → List Json
  | [] => []
  | item :: items => unsigned item :: unsignedItems items

def unsignedFields : List (String × Json) → List (String × Json)
  | [] => []
  | (name, value) :: fields => (name, unsigned value) :: unsignedFields fields

end

theorem unsignedZero_eq_of_beq {x y : Float} (h : (x == y) = true) :
    unsignedZero x = unsignedZero y := by
  have hzeros : unsignedZero 0.0 = unsignedZero (-0.0) := by
    rw [unsignedZero, unsignedZero, if_pos (by decide), if_pos (by decide)]
  rcases eq_or_zeros_of_beq h with rfl | ⟨rfl, rfl⟩ | ⟨rfl, rfl⟩
  · rfl
  · exact hzeros
  · exact hzeros.symm

theorem eq_of_same_of_scalar {first second : Json}
    (hscalar : (first matches .null | .bool _ | .int _ | .string _) = true)
    (h : same first second = true) : first = second := by
  cases first <;> simp only [reduceCtorEq] at hscalar <;> cases second <;> simp_all [same]

mutual

theorem unsigned_eq_of_same : (first second : Json) → same first second = true →
    unsigned first = unsigned second
  | .null, _, h | .bool _, _, h | .int _, _, h | .string _, _, h => by
      rw [eq_of_same_of_scalar rfl h]
  | .float _, second, h => by
      cases second <;> simp only [same, Bool.false_eq_true] at h
      simp only [unsigned, unsignedZero_eq_of_beq h]
  | .array first, second, h => by
      cases second <;> simp only [same, Bool.false_eq_true] at h
      simp only [unsigned, unsignedItems_eq_of_same first _ h]
  | .object first, second, h => by
      cases second <;> simp only [same, Bool.false_eq_true] at h
      simp only [unsigned, unsignedFields_eq_of_same first _ h]

theorem unsignedItems_eq_of_same : (first second : List Json) → sameItems first second = true →
    unsignedItems first = unsignedItems second
  | [], second, h => by
      cases second <;> simp [sameItems] at h
      rfl
  | item :: items, second, h => by
      cases second <;> simp only [sameItems, Bool.false_eq_true, Bool.and_eq_true] at h
      simp only [unsignedItems, unsigned_eq_of_same item _ h.1,
        unsignedItems_eq_of_same items _ h.2]

theorem unsignedFields_eq_of_same : (first second : List (String × Json)) →
    sameFields first second = true → unsignedFields first = unsignedFields second
  | [], second, h => by
      cases second <;> simp [sameFields] at h
      rfl
  | (name, value) :: fields, second, h => by
      cases second <;>
        simp only [sameFields, Bool.false_eq_true, Bool.and_eq_true, beq_iff_eq] at h
      simp only [unsignedFields, h.1.1, unsigned_eq_of_same value _ h.1.2,
        unsignedFields_eq_of_same fields _ h.2]

end

/-! ## One text -/

theorem floatText_zeros_ne {u v : List Char} :
    (floatText 0.0).toList ++ u ≠ (floatText (-0.0)).toList ++ v := by
  have hpositive : (floatText 0.0).toList = ['0', '.', '0'] := by decide +kernel
  have hnegative : (floatText (-0.0)).toList = ['-', '0', '.', '0'] := by decide +kernel
  simp [hpositive, hnegative]

def following (written : List α → String) : List α → String
  | [] => ""
  | part :: parts => "," ++ written (part :: parts)

theorem itemsText_cons (item : Json) (items : List Json) :
    itemsText (item :: items) = text item ++ following itemsText items := by
  cases items <;> simp [itemsText, following, String.append_assoc]

theorem fieldsText_cons (name : String) (value : Json) (fields : List (String × Json)) :
    fieldsText ((name, value) :: fields) =
      quote name ++ ":" ++ text value ++ following fieldsText fields := by
  cases fields <;> simp [fieldsText, following, String.append_assoc]

mutual

/-- What is written behind a value does not matter: equal texts show equal values. -/
theorem eq_of_text : (first second : Json) → same first second = true → {u v : List Char} →
    first.text.toList ++ u = second.text.toList ++ v → first = second
  | .null, _, h, _, _, _ | .bool _, _, h, _, _, _ | .int _, _, h, _, _, _
  | .string _, _, h, _, _, _ => eq_of_same_of_scalar rfl h
  | .float _, second, h, _, _, htext => by
      cases second <;> simp only [same, Bool.false_eq_true] at h
      rcases eq_or_zeros_of_beq h with rfl | ⟨rfl, rfl⟩ | ⟨rfl, rfl⟩
      · rfl
      · exact absurd htext floatText_zeros_ne
      · exact absurd htext.symm floatText_zeros_ne
  | .array first, second, h, _, _, htext => by
      cases second <;> simp only [same, Bool.false_eq_true] at h
      simp only [text, String.toList_append, List.append_assoc, List.append_cancel_left_eq] at htext
      rw [eq_of_itemsText first _ h htext]
  | .object first, second, h, _, _, htext => by
      cases second <;> simp only [same, Bool.false_eq_true] at h
      simp only [text, String.toList_append, List.append_assoc, List.append_cancel_left_eq] at htext
      rw [eq_of_fieldsText first _ h htext]

theorem eq_of_itemsText : (first second : List Json) → sameItems first second = true →
    {u v : List Char} → (itemsText first).toList ++ u = (itemsText second).toList ++ v →
    first = second
  | [], second, h, _, _, _ => by
      cases second <;> simp [sameItems] at h
      rfl
  | item :: items, [], h, _, _, _ => by simp [sameItems] at h
  | item :: items, other :: others, h, _, _, htext => by
      simp only [sameItems, Bool.and_eq_true] at h
      simp only [itemsText_cons, String.toList_append, List.append_assoc] at htext
      -- named before `items` is split, so that the recursion is on `items` itself
      have hrest := fun {u v} => @eq_of_itemsText items others h.2 u v
      obtain rfl := eq_of_text item other h.1 htext
      rw [List.append_cancel_left_eq] at htext
      cases items <;> cases others <;> simp only [sameItems, Bool.false_eq_true, and_false] at h
      · rfl
      · simp only [following, String.toList_append, List.append_assoc,
          List.append_cancel_left_eq] at htext
        rw [hrest htext]

theorem eq_of_fieldsText : (first second : List (String × Json)) →
    sameFields first second = true → {u v : List Char} →
    (fieldsText first).toList ++ u = (fieldsText second).toList ++ v → first = second
  | [], second, h, _, _, _ => by
      cases second <;> simp [sameFields] at h
      rfl
  | field :: fields, [], h, _, _, _ => by simp [sameFields] at h
  | (name, value) :: fields, (other, second) :: others, h, _, _, htext => by
      simp only [sameFields, Bool.and_eq_true, beq_iff_eq] at h
      obtain ⟨⟨rfl, hvalue⟩, hfields⟩ := h
      simp only [fieldsText_cons, String.toList_append, List.append_assoc,
        List.append_cancel_left_eq] at htext
      have hrest := fun {u v} => @eq_of_fieldsText fields others hfields u v
      obtain rfl := eq_of_text value second hvalue htext
      rw [List.append_cancel_left_eq] at htext
      cases fields <;> cases others <;> simp only [sameFields, Bool.false_eq_true] at hfields
      · rfl
      · simp only [following, String.toList_append, List.append_assoc,
          List.append_cancel_left_eq] at htext
        rw [hrest htext]

end

theorem text_eq_iff_of_same {first second : Json} (h : same first second = true) :
    first.text = second.text ↔ first = second := by
  constructor
  · intro htext
    exact eq_of_text first second h (congrArg (·.toList ++ []) htext)
  · rintro rfl
    rfl

theorem sameFields_insertEntry (name : String) {value other : Json}
    (hvalue : same value other = true) {fields others : List (String × Json)}
    (h : sameFields fields others = true) :
    sameFields (Keyed.insertEntry name value fields) (Keyed.insertEntry name other others) =
      true := by
  induction fields generalizing others with
  | nil =>
      cases others <;> simp [sameFields] at h
      simp [Keyed.insertEntry, sameFields, hvalue]
  | cons field fields ih =>
      obtain ⟨first, held⟩ := field
      cases others with
      | nil => simp [sameFields] at h
      | cons field' others =>
          obtain ⟨second, held'⟩ := field'
          simp only [sameFields, Bool.and_eq_true, beq_iff_eq] at h
          obtain ⟨⟨rfl, hheld⟩, hrest⟩ := h
          simp only [Keyed.insertEntry]
          split
          · simp [sameFields, hvalue, hheld, hrest]
          · split
            · simp [sameFields, hheld, ih hrest]
            · simp [sameFields, hvalue, hrest]

theorem sameFields_insertAll {table table' : Keyed Json}
    (htable : sameFields table.entries table'.entries = true) {fields others : List (String × Json)}
    (h : sameFields fields others = true) :
    sameFields (table.insertAll fields).entries (table'.insertAll others).entries = true := by
  induction fields generalizing table table' others with
  | nil =>
      cases others <;> simp [sameFields] at h
      exact htable
  | cons field fields ih =>
      obtain ⟨first, value⟩ := field
      cases others with
      | nil => simp [sameFields] at h
      | cons field' others =>
          obtain ⟨second, value'⟩ := field'
          simp only [sameFields, Bool.and_eq_true, beq_iff_eq] at h
          obtain ⟨⟨rfl, hvalue⟩, hrest⟩ := h
          change sameFields ((table.insert first value).insertAll fields).entries
            ((table'.insert first value').insertAll others).entries = true
          exact ih (sameFields_insertEntry first hvalue htable) hrest

mutual

theorem same_canonical : (first second : Json) → same first second = true →
    same first.canonical second.canonical = true
  | .null, second, h | .bool _, second, h | .int _, second, h | .float _, second, h
  | .string _, second, h => by
      cases second <;> exact h
  | .array first, second, h => by
      cases second <;> simp only [same, Bool.false_eq_true] at h
      exact sameItems_canonicalItems first _ h
  | .object first, second, h => by
      cases second <;> simp only [same, Bool.false_eq_true] at h
      exact @sameFields_insertAll ∅ ∅ rfl _ _ (sameFields_canonicalFields first _ h)

theorem sameItems_canonicalItems : (first second : List Json) → sameItems first second = true →
    sameItems (canonicalItems first) (canonicalItems second) = true
  | [], second, h => by
      cases second <;> simp [sameItems] at h
      rfl
  | item :: items, second, h => by
      cases second <;> simp only [sameItems, Bool.false_eq_true, Bool.and_eq_true] at h
      simp only [canonicalItems, sameItems, Bool.and_eq_true]
      exact ⟨same_canonical item _ h.1, sameItems_canonicalItems items _ h.2⟩

theorem sameFields_canonicalFields : (first second : List (String × Json)) →
    sameFields first second = true →
    sameFields (canonicalFields first) (canonicalFields second) = true
  | [], second, h => by
      cases second <;> simp [sameFields] at h
      rfl
  | (name, value) :: fields, second, h => by
      cases second <;>
        simp only [sameFields, Bool.false_eq_true, Bool.and_eq_true, beq_iff_eq] at h
      simp only [canonicalFields, sameFields, Bool.and_eq_true, beq_iff_eq]
      exact ⟨⟨h.1.1, same_canonical value _ h.1.2⟩, sameFields_canonicalFields fields _ h.2⟩

end

theorem same_of_lookup {fields others : List (String × Json)}
    (h : sameFields fields others = true) {name : String} {value other : Json}
    (hvalue : fields.lookup name = some value) (hother : others.lookup name = some other) :
    same value other = true := by
  induction fields generalizing others with
  | nil => simp at hvalue
  | cons field fields ih =>
      obtain ⟨first, held⟩ := field
      cases others with
      | nil => simp [sameFields] at h
      | cons field' others =>
          obtain ⟨second, held'⟩ := field'
          simp only [sameFields, Bool.and_eq_true, beq_iff_eq] at h
          obtain ⟨⟨rfl, hheld⟩, hrest⟩ := h
          rw [List.lookup_cons] at hvalue hother
          cases hname : name == first with
          | true =>
              rw [hname] at hvalue hother
              cases hvalue
              cases hother
              exact hheld
          | false =>
              rw [hname] at hvalue hother
              exact ih hrest hvalue hother

theorem same_of_field? {first second : Json} (h : same first second = true) {name : String}
    {value other : Json} (hvalue : first.field? name = some value)
    (hother : second.field? name = some other) : same value other = true := by
  cases first <;> simp only [field?, reduceCtorEq] at hvalue
  cases second <;> simp only [field?, reduceCtorEq] at hother
  exact same_of_lookup h hvalue hother

theorem strings_eq_of_same {items others : List String}
    (h : same (strings items) (strings others) = true) : items = others := by
  change sameItems (items.map .string) (others.map .string) = true at h
  induction items generalizing others with
  | nil => cases others <;> simp [sameItems] at h; rfl
  | cons item items ih =>
      cases others with
      | nil => simp [sameItems] at h
      | cons other others =>
          simp only [List.map_cons, sameItems, same, Bool.and_eq_true, beq_iff_eq] at h
          rw [h.1, ih h.2]

end Json

/-! ## Descriptors -/

namespace Descriptor

/-- Descriptors that compare equal are the same up to the signs of zeros.  Their texts, and with
these their digests, are equal if the signs are too, and their texts are equal in no other case. -/
theorem canonicalText_eq_iff_of_beq {first second : Descriptor} (h : (first == second) = true) :
    first.value.unsigned = second.value.unsigned ∧
    (first.text = second.text ↔ first.value = second.value) ∧
    (first.value.canonicalText = second.value.canonicalText ↔
      first.value.canonical = second.value.canonical) ∧
    (first.value.canonical = second.value.canonical → first.digest = second.digest) ∧
    (first.value.unsigned = first.value → second.value.unsigned = second.value →
      first.value.canonicalText = second.value.canonicalText ∧ first.digest = second.digest) := by
  have hsame : Json.same first.value second.value = true := h
  have hunsigned := Json.unsigned_eq_of_same _ _ hsame
  refine ⟨hunsigned, Json.text_eq_iff_of_same hsame,
    Json.text_eq_iff_of_same (Json.same_canonical _ _ hsame), ?_, ?_⟩
  · intro hcanonical
    rw [digest, digest, Json.canonicalText, Json.canonicalText, hcanonical]
  · intro hfirst hsecond
    have hvalue : first.value = second.value := by rw [← hfirst, hunsigned, hsecond]
    rw [digest, digest, hvalue]
    exact ⟨rfl, rfl⟩

def radiusLast : Descriptor :=
  .ofFields "circular" [("centre", .floats [0.0, 1.5]), ("radius", .float 2.0)]

def radiusFirst : Descriptor :=
  .ofFields "circular" [("radius", .float 2.0), ("centre", .floats [0.0, 1.5])]

theorem canonicalText_eq_iff_of_beq_radiusFirst :
    (radiusFirst == radiusLast) = true ∧
      radiusFirst.value.canonicalText = radiusLast.value.canonicalText ∧
      radiusFirst.digest = radiusLast.digest := by
  have hequal : (radiusFirst == radiusLast) = true := by decide +kernel
  obtain ⟨-, -, -, -, hshown⟩ := canonicalText_eq_iff_of_beq hequal
  exact ⟨hequal, hshown rfl rfl⟩

end Descriptor

namespace RegionSet

def pointSet (x : Float) : RegionSet := ⟨[.point (x, 0.0)], ["x", "y"]⟩

/-- Two accepted excluders of the same point: one is dropped as a duplicate of the other, and yet
they show different texts and different digests. -/
theorem digest_ne_of_signedZero :
    (pointSet 0.0).check.isOk = true ∧ (pointSet (-0.0)).check.isOk = true ∧
      ((pointSet 0.0).excluder.descriptor == (pointSet (-0.0)).excluder.descriptor) = true ∧
      (Descriptor.firstOccurrences Excluder.descriptor
        [(pointSet 0.0).excluder, (pointSet (-0.0)).excluder]).length = 1 ∧
      (pointSet 0.0).excluder.descriptor.value.canonicalText ≠
        (pointSet (-0.0)).excluder.descriptor.value.canonicalText ∧
      (pointSet 0.0).excluder.descriptor.digest ≠
        (pointSet (-0.0)).excluder.descriptor.digest := by
  refine ⟨?_, ?_, ?_, ?_, ?_, ?_⟩ <;> decide +kernel

end RegionSet

end ScanPath
