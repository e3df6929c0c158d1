import ScanPath.Proofs.Json.Unambiguous

/-!
# Values up to the order of fields

The order in which fields are written can be changed at any depth without a
change of the canonical form, and the canonical form is itself the value in
another order.  As a text comes from one value only, canonical bytes are equal
for values that are reorderings of each other, and for no others.
-/

namespace ScanPath

namespace Json

/-- The second value is the first one with the fields of objects in it, at any depth, in another
order. -/
inductive Reordered : Json → Json → Prop
  | refl (json : Json) : Reordered json json
  | trans {first second third : Json} :
      Reordered first second → Reordered second third → Reordered first third
  | fields {fields others : List (String × Json)} :
      fields.Perm others → Reordered (.object fields) (.object others)
  | item (before behind : List Json) {item other : Json} : Reordered item other →
      Reordered (.array (before ++ item :: behind)) (.array (before ++ other :: behind))
  | value (before : List (String × Json)) (name : String) (behind : List (String × Json))
      {value other : Json} : Reordered value other →
      Reordered (.object (before ++ (name, value) :: behind))
        (.object (before ++ (name, other) :: behind))

namespace Reordered

theorem symm {first second : Json} (h : Reordered first second) : Reordered second first := by
  induction h with
  | refl json => exact .refl json
  | trans _ _ ih ih' => exact ih'.trans ih
  | fields h => exact .fields h.symm
  | item before behind _ ih => exact .item before behind ih
  | value before name behind _ ih => exact .value before name behind ih

theorem everywhere_sound {first second : Json} (h : Reordered first second)
    (hfirst : first.Everywhere Sound) : second.Everywhere Sound := by
  induction h with
  | refl json => exact hfirst
  | trans _ _ ih ih' => exact ih' (ih hfirst)
  | fields h =>
      obtain ⟨hnames, hfields⟩ := hfirst
      rw [everywhereFields_iff] at hfields
      refine ⟨((h.map Prod.fst).nodup_iff).mp hnames, everywhereFields_iff.mpr ?_⟩
      exact fun field hmem => hfields field (h.mem_iff.mpr hmem)
  | item before behind _ ih =>
      obtain ⟨-, hitems⟩ := hfirst
      simp only [everywhereItems_iff, List.forall_mem_append, List.forall_mem_cons] at hitems
      refine ⟨trivial, ?_⟩
      simp only [everywhereItems_iff, List.forall_mem_append, List.forall_mem_cons]
      exact ⟨hitems.1, ih hitems.2.1, hitems.2.2⟩
  | value before name behind _ ih =>
      obtain ⟨hnames, hfields⟩ := hfirst
      simp only [everywhereFields_iff, List.forall_mem_append, List.forall_mem_cons] at hfields
      refine ⟨by simpa [Sound] using hnames, ?_⟩
      simp only [everywhereFields_iff, List.forall_mem_append, List.forall_mem_cons]
      exact ⟨hfields.1, ih hfields.2.1, hfields.2.2⟩

theorem canonical_eq {first second : Json} (h : Reordered first second)
    (hfirst : first.Everywhere Sound) : first.canonical = second.canonical := by
  induction h with
  | refl json => rfl
  | trans h _ ih ih' => exact (ih hfirst).trans (ih' (h.everywhere_sound hfirst))
  | @fields fields others h =>
      have hnames : ((canonicalFields fields).map Prod.fst).Nodup := by
        rw [map_fst_canonicalFields]
        exact hfirst.1
      have hperm : (canonicalFields fields).Perm (canonicalFields others) := by
        rw [canonicalFields_eq_map, canonicalFields_eq_map]
        exact h.map _
      rw [canonical, canonical, orderedFields, orderedFields, Keyed.ofList_eq_of_perm hperm hnames]
  | item before behind _ ih =>
      obtain ⟨-, hitems⟩ := hfirst
      simp only [everywhereItems_iff, List.forall_mem_append, List.forall_mem_cons] at hitems
      simp only [canonical, canonicalItems_eq_map, List.map_append, List.map_cons, ih hitems.2.1]
  | value before name behind _ ih =>
      obtain ⟨-, hfields⟩ := hfirst
      simp only [everywhereFields_iff, List.forall_mem_append, List.forall_mem_cons] at hfields
      simp only [canonical, canonicalFields_eq_map, List.map_append, List.map_cons,
        ih hfields.2.1]

end Reordered

mutual

theorem reordered_canonical : (json : Json) → json.Everywhere Sound → Reordered json json.canonical
  | .null, _ => .refl _
  | .bool _, _ | .int _, _ | .float _, _ | .string _, _ => .refl _
  | .array items, h => reordered_canonicalItems [] items h.2
  | .object fields, h => by
      have hfields := reordered_canonicalFields [] fields h.2
      have hnames : ((canonicalFields fields).map Prod.fst).Nodup := by
        rw [map_fst_canonicalFields]
        exact h.1
      exact hfields.trans (.fields (Keyed.entries_ofList_perm hnames).symm)

theorem reordered_canonicalItems (before : List Json) : (items : List Json) →
    EverywhereItems Sound items →
    Reordered (.array (before ++ items)) (.array (before ++ canonicalItems items))
  | [], _ => .refl _
  | item :: items, h => by
      have hitem := reordered_canonical item h.1
      have hitems := reordered_canonicalItems (before ++ [item.canonical]) items h.2
      rw [List.append_assoc, List.append_assoc] at hitems
      exact .trans (.item before items hitem) hitems

theorem reordered_canonicalFields (before : List (String × Json)) :
    (fields : List (String × Json)) → EverywhereFields Sound fields →
    Reordered (.object (before ++ fields)) (.object (before ++ canonicalFields fields))
  | [], _ => .refl _
  | (name, value) :: fields, h => by
      have hvalue := reordered_canonical value h.1
      have hfields := reordered_canonicalFields (before ++ [(name, value.canonical)]) fields h.2
      rw [List.append_assoc, List.append_assoc] at hfields
      exact .trans (.value before name fields hvalue) hfields

end

def Ordered : Json → Prop
  | .object fields => (fields.map Prod.fst).Pairwise (· < ·)
  | _ => True

mutual

theorem canonical_ordered : (json : Json) → json.canonical.Everywhere Ordered
  | .null | .bool _ | .int _ | .float _ | .string _ => trivial
  | .array items => ⟨trivial, canonicalItems_ordered items⟩
  | .object fields => by
      have hfields := everywhereFields_iff.mp (canonicalFields_ordered fields)
      refine ⟨(Keyed.ofList (canonicalFields fields)).sorted, everywhereFields_iff.mpr ?_⟩
      exact fun field hmem => hfields field (Keyed.mem_of_mem_ofList hmem)

theorem canonicalItems_ordered : (items : List Json) →
    EverywhereItems Ordered (canonicalItems items)
  | [] => trivial
  | item :: items => ⟨canonical_ordered item, canonicalItems_ordered items⟩

theorem canonicalFields_ordered : (fields : List (String × Json)) →
    EverywhereFields Ordered (canonicalFields fields)
  | [] => trivial
  | (_, value) :: fields => ⟨canonical_ordered value, canonicalFields_ordered fields⟩

end

/-- The canonical bytes of two values are equal exactly if one is the other with the fields of its
objects in another order.  The canonical form is its own canonical form and has the fields of every
object in order. -/
theorem canonicalText_eq_iff_reordered {first second : Json} (hfirst : first.Everywhere Sound)
    (hsecond : second.Everywhere Sound) :
    (first.canonicalText.toUTF8 = second.canonicalText.toUTF8 ↔ Reordered first second) ∧
      first.canonical.canonical = first.canonical ∧ first.canonical.Everywhere Ordered := by
  refine ⟨⟨?_, ?_⟩, canonical_canonical first, canonical_ordered first⟩
  · intro hbytes
    have htext : first.canonical.text = second.canonical.text := String.toByteArray_inj.mp hbytes
    have hordered := reordered_canonical first hfirst
    have hordered' := reordered_canonical second hsecond
    have hcanonical := text_inj (hordered.everywhere_sound hfirst)
      (hordered'.everywhere_sound hsecond) htext
    exact hordered.trans (hcanonical ▸ hordered'.symm)
  · intro hreordered
    rw [canonicalText, canonicalText, hreordered.canonical_eq hfirst]

def sampleValue : Json :=
  .object [("b", .array [.float 1.0, .int 1, .object [("\"", .null), ("", .string "a\n\x7d")]]),
    ("a", .object [("z", .float (-0.0)), ("y", .array [])])]

def sampleReordered : Json :=
  .object [("a", .object [("y", .array []), ("z", .float (-0.0))]),
    ("b", .array [.float 1.0, .int 1, .object [("", .string "a\n\x7d"), ("\"", .null)]])]

theorem canonicalText_eq_iff_reordered_sampleValue :
    sampleValue.Everywhere Sound ∧ sampleReordered.Everywhere Sound ∧
      Reordered sampleValue sampleReordered ∧ sampleValue.canonical.Everywhere Ordered := by
  have hfirst : sampleValue.Everywhere Sound := by
    simp only [sampleValue, Everywhere, EverywhereItems, EverywhereFields, Sound]
    decide +kernel
  have hsecond : sampleReordered.Everywhere Sound := by
    simp only [sampleReordered, Everywhere, EverywhereItems, EverywhereFields, Sound]
    decide +kernel
  obtain ⟨hiff, -, hordered⟩ := canonicalText_eq_iff_reordered hfirst hsecond
  exact ⟨hfirst, hsecond, hiff.mp (by decide +kernel), hordered⟩

end Json

end ScanPath
