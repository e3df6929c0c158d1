import ScanPath.Descriptor
import ScanPath.Proofs.Keyed

/-!
# Canonical values

The canonical form of a value is its own canonical form.  It keeps the values of
fields with different names apart, so an object can be told from its canonical
form once the names are known, and a descriptor tells its kind in any case.
Numbers are told apart as far as JSON has them: of floats, only the finite ones.
-/

namespace ScanPath

theorem eq_of_map_eq {α β : Type} {f : α → β} {items others : List α}
    (h : items.map f = others.map f)
    (hinj : ∀ item ∈ items, ∀ other ∈ others, f item = f other → item = other) :
    items = others := by
  induction items generalizing others with
  | nil => exact (List.map_eq_nil_iff.mp h.symm).symm
  | cons item items ih =>
      cases others with
      | nil => cases h
      | cons other others =>
          obtain ⟨hhead, htail⟩ := List.cons.inj h
          rw [hinj item List.mem_cons_self other List.mem_cons_self hhead]
          congr 1
          apply ih htail
          intro first hfirst second hsecond
          exact hinj first (List.mem_cons_of_mem _ hfirst) second (List.mem_cons_of_mem _ hsecond)

namespace Json

theorem canonicalItems_eq_map (items : List Json) : canonicalItems items = items.map canonical := by
  induction items with
  | nil => rfl
  | cons item items ih => rw [canonicalItems, ih, List.map_cons]

theorem canonicalFields_eq_map (fields : List (String × Json)) :
    canonicalFields fields = fields.map fun field => (field.1, field.2.canonical) := by
  induction fields with
  | nil => rfl
  | cons field fields ih =>
      obtain ⟨name, value⟩ := field
      rw [canonicalFields, ih, List.map_cons]

theorem map_fst_canonicalFields (fields : List (String × Json)) :
    (canonicalFields fields).map Prod.fst = fields.map Prod.fst := by
  rw [canonicalFields_eq_map, List.map_map]
  rfl

theorem canonicalFields_orderedFields (fields : List (String × Json)) :
    canonicalFields (orderedFields fields) = orderedFields (canonicalFields fields) := by
  have hmap : (Keyed.ofList fields).map canonical = Keyed.ofList (canonicalFields fields) := by
    rw [canonicalFields_eq_map]
    exact Keyed.map_insertAll canonical ∅ fields
  rw [canonicalFields_eq_map, orderedFields, orderedFields, ← hmap]
  rfl

theorem orderedFields_orderedFields (fields : List (String × Json)) :
    orderedFields (orderedFields fields) = orderedFields fields := by
  rw [orderedFields, orderedFields, Keyed.ofList_entries]

mutual

theorem canonical_canonical : (json : Json) → json.canonical.canonical = json.canonical
  | .null | .bool _ | .int _ | .float _ | .string _ => rfl
  | .array items => by
      rw [canonical, canonical, canonicalItems_canonicalItems items]
  | .object fields => by
      rw [canonical, canonical, canonicalFields_orderedFields,
        canonicalFields_canonicalFields fields, orderedFields_orderedFields]

theorem canonicalItems_canonicalItems : (items : List Json) →
    canonicalItems (canonicalItems items) = canonicalItems items
  | [] => rfl
  | item :: items => by
      rw [canonicalItems, canonicalItems, canonical_canonical item,
        canonicalItems_canonicalItems items]

theorem canonicalFields_canonicalFields : (fields : List (String × Json)) →
    canonicalFields (canonicalFields fields) = canonicalFields fields
  | [] => rfl
  | (name, value) :: fields => by
      rw [canonicalFields, canonicalFields, canonical_canonical value,
        canonicalFields_canonicalFields fields]

end

@[simp] theorem canonical_ofFloat (x : Float) : (ofFloat x).canonical = ofFloat x := by
  unfold ofFloat
  split <;> rfl

@[simp] theorem canonical_floats (items : List Float) :
    (floats items).canonical = floats items := by
  rw [floats, canonical, canonicalItems_eq_map, List.map_map]
  congr 2
  funext x
  exact canonical_ofFloat x

@[simp] theorem canonical_strings (items : List String) :
    (strings items).canonical = strings items := by
  rw [strings, canonical, canonicalItems_eq_map, List.map_map]
  rfl

@[simp] theorem canonical_optional_ofFloat (x : Option Float) :
    (optional ofFloat x).canonical = optional ofFloat x := by
  cases x with
  | none => rfl
  | some x => exact canonical_ofFloat x

theorem ofFloat_inj {x y : Float} (hx : x.isFinite = true) (hy : y.isFinite = true)
    (h : ofFloat x = ofFloat y) : x = y := by
  rw [ofFloat, ofFloat, if_pos hx, if_pos hy] at h
  exact Json.float.inj h

theorem floats_inj {items others : List Float} (hitems : ∀ x ∈ items, x.isFinite = true)
    (hothers : ∀ x ∈ others, x.isFinite = true) (h : floats items = floats others) :
    items = others :=
  eq_of_map_eq (Json.array.inj h) fun x hx y hy => ofFloat_inj (hitems x hx) (hothers y hy)

theorem strings_inj {items others : List String} (h : strings items = strings others) :
    items = others :=
  eq_of_map_eq (Json.array.inj h) fun _ _ _ _ => Json.string.inj

theorem ofNat_inj {m n : Nat} (h : ofNat m = ofNat n) : m = n :=
  Int.ofNat.inj (Json.int.inj h)

theorem optional_ofFloat_inj {x y : Option Float}
    (hx : ∀ value, x = some value → value.isFinite = true)
    (hy : ∀ value, y = some value → value.isFinite = true)
    (h : optional ofFloat x = optional ofFloat y) : x = y := by
  cases x with
  | none =>
      cases y with
      | none => rfl
      | some y =>
          rw [optional, optional, ofFloat, if_pos (hy y rfl)] at h
          cases h
  | some x =>
      cases y with
      | none =>
          rw [optional, optional, ofFloat, if_pos (hx x rfl)] at h
          cases h
      | some y => exact congrArg some (ofFloat_inj (hx x rfl) (hy y rfl) h)

theorem items_eq_of_canonical_eq {α : Type} {encode : α → Json} {items others : List α}
    (h : (array (items.map encode)).canonical = (array (others.map encode)).canonical)
    (hinj : ∀ item ∈ items, ∀ other ∈ others,
      (encode item).canonical = (encode other).canonical → item = other) :
    items = others := by
  rw [canonical, canonical, canonicalItems_eq_map, canonicalItems_eq_map, List.map_map,
    List.map_map] at h
  exact eq_of_map_eq (Json.array.inj h) hinj

theorem field?_canonical {fields : List (String × Json)} (hnodup : (fields.map Prod.fst).Nodup)
    (name : String) :
    (object fields).canonical.field? name = (canonicalFields fields).lookup name := by
  rw [canonical, field?, orderedFields]
  exact Keyed.get?_ofList (map_fst_canonicalFields fields ▸ hnodup) name

theorem lookup_orderedFields {fields : List (String × Json)} (h : (fields.map Prod.fst).Nodup)
    (name : String) :
    (orderedFields (canonicalFields fields)).lookup name = (fields.lookup name).map canonical := by
  have hfield := field?_canonical h name
  rwa [canonical, field?, canonicalFields_eq_map, Keyed.lookup_map, ← canonicalFields_eq_map]
    at hfield

theorem canonical_table {α : Type} (encode : α → Json) (table : Keyed α) :
    (object (table.map encode).entries).canonical =
      .object (table.map fun value => (encode value).canonical).entries := by
  have hfields : canonicalFields (table.map encode).entries =
      (table.map fun value => (encode value).canonical).entries := by
    rw [canonicalFields_eq_map, Keyed.map, Keyed.map, List.map_map]
    rfl
  rw [canonical, hfields, orderedFields, Keyed.ofList_entries]

theorem values_eq_of_canonical_eq (names : List String) {fields others : List (String × Json)}
    (h : (object fields).canonical = (object others).canonical)
    (hfields : fields.map Prod.fst = names) (hothers : others.map Prod.fst = names)
    (hnodup : names.Nodup) :
    (fields.map fun field => field.2.canonical) = others.map fun field => field.2.canonical := by
  rw [canonical, canonical] at h
  rw [← map_fst_canonicalFields] at hfields hothers
  have htables := Keyed.ofList_inj (hfields.trans hothers.symm) (hfields ▸ hnodup)
    (Keyed.ext (Json.object.inj h))
  have hvalues := congrArg (List.map Prod.snd) htables
  rw [canonicalFields_eq_map, canonicalFields_eq_map, List.map_map, List.map_map] at hvalues
  exact hvalues

end Json

namespace Descriptor

theorem kind?_ofFields (kind : String) (fields : List (String × Json)) :
    (ofFields kind fields).kind? = some kind := by
  have hfield : (ofFields kind fields).value.field? typeField = some (.string kind) := by
    rw [ofFields, Json.canonical, Json.field?, Json.orderedFields, Json.canonicalFields_eq_map,
      List.map_append]
    change ((Keyed.insertAll ∅ _).get? typeField) = _
    rw [Keyed.insertAll_append]
    exact Keyed.get?_insert_self _ _ _
  rw [kind?, hfield]

theorem kind_eq_of_ofFields_eq {kind kind' : String} {fields others : List (String × Json)}
    (h : ofFields kind fields = ofFields kind' others) : kind = kind' := by
  apply Option.some.inj
  rw [← kind?_ofFields kind fields, h, kind?_ofFields]

theorem values_eq_of_ofFields_eq (names : List String) {kind kind' : String}
    {fields others : List (String × Json)} (h : ofFields kind fields = ofFields kind' others)
    (hfields : fields.map Prod.fst = names) (hothers : others.map Prod.fst = names)
    (hnodup : (names ++ [typeField]).Nodup) :
    (fields.map fun field => field.2.canonical) = others.map fun field => field.2.canonical := by
  have hvalues := Json.values_eq_of_canonical_eq (names ++ [typeField]) (Descriptor.mk.inj h)
    (by rw [List.map_append, hfields]; rfl) (by rw [List.map_append, hothers]; rfl) hnodup
  rw [List.map_append, List.map_append] at hvalues
  exact (List.append_inj' hvalues rfl).1

theorem ofFields_eq_of_canonical_eq {kind kind' : String} {fields others : List (String × Json)}
    (h : (ofFields kind fields).value.canonical = (ofFields kind' others).value.canonical) :
    ofFields kind fields = ofFields kind' others := by
  rw [ofFields, ofFields, Json.canonical_canonical, Json.canonical_canonical] at h
  exact congrArg Descriptor.mk h

end Descriptor

end ScanPath
