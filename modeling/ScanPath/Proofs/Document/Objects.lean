import Mathlib.Data.List.Nodup
import ScanPath.Proofs.Document

/-!
# Objects read as records

An object of which the fields may stand in any order, with others among them,
and more than once: a record is read from it if no name that is asked for stands
twice, and it then holds what the object has under these names.  A text, a text
or null, and a table of texts are each read from the values that were written
for them and from no others.
-/

namespace ScanPath

namespace Json

def textFields (entries : List (String × String)) : List (String × Json) :=
  entries.map fun entry => (entry.1, .string entry.2)

/-- An object that lists a table of texts, the last text under a name counting. -/
def IsTable (json : Json) (table : Keyed String) : Prop :=
  ∃ entries, json = .object (textFields entries) ∧ Keyed.ofList entries = table

theorem isTable_entries (table : Keyed String) :
    (object (textFields table.entries)).IsTable table :=
  ⟨table.entries, rfl, Keyed.ofList_entries table⟩

theorem IsTable.canonical {json : Json} {table : Keyed String} (h : json.IsTable table) :
    json.canonical.IsTable table := by
  obtain ⟨entries, rfl, rfl⟩ := h
  have hfields : canonicalFields (textFields entries) = textFields entries := by
    rw [canonicalFields_eq_map, textFields, List.map_map]
    rfl
  have htable : (Keyed.ofList entries).map Json.string = Keyed.ofList (textFields entries) :=
    Keyed.map_insertAll Json.string ∅ entries
  have hcanonical : (object (textFields entries)).canonical =
      .object (textFields (Keyed.ofList entries).entries) := by
    rw [Json.canonical, hfields, orderedFields, ← htable]
    rfl
  exact hcanonical ▸ isTable_entries (Keyed.ofList entries)

/-- A name, or an object that holds null under it and nothing else. -/
def IsChoice (json : Json) (name : String) : Prop :=
  json = .string name ∨ json = .object [(name, .null)]

theorem IsChoice.canonical {json : Json} {name : String} (h : json.IsChoice name) :
    json.canonical.IsChoice name := by
  rcases h with rfl | rfl
  · exact .inl rfl
  · exact .inr rfl

end Json

namespace Document

theorem text?_ofJson_iff {json : Json} {text : String} :
    (ofJson json).text? = some text ↔ json = .string text := by
  cases json <;> simp [ofJson, ofInt, text?]

theorem orNull?_ofJson_iff {json : Json} {text : Option String} :
    (ofJson json).orNull? text? = some text ↔ json = .optional .string text := by
  cases json <;> cases text <;> simp [ofJson, ofInt, orNull?, text?, Json.optional]

def textEntry? (entry : Document × Document) : Option (String × String) := do
  let key ← entry.1.text?
  let value ← entry.2.text?
  return (key, value)

theorem textEntry?_ofJson_iff {name : String} {value : Json} {entry : String × String} :
    textEntry? (.text name, ofJson value) = some entry ↔
      (name, value) = (entry.1, Json.string entry.2) := by
  obtain ⟨key, text⟩ := entry
  change ((ofJson value).text?.bind fun text => some (name, text)) = _ ↔ _
  simp only [Option.bind_eq_some_iff, text?_ofJson_iff, Option.some.injEq, Prod.mk.injEq]
  constructor
  · rintro ⟨_, rfl, rfl, rfl⟩
    exact ⟨rfl, rfl⟩
  · rintro ⟨rfl, rfl⟩
    exact ⟨text, rfl, rfl, rfl⟩

theorem mapM_textEntry?_iff {fields : List (String × Json)} {entries : List (String × String)} :
    (ofFields fields).mapM textEntry? = some entries ↔ fields = Json.textFields entries := by
  induction fields generalizing entries with
  | nil => cases entries <;> simp [ofFields, Json.textFields]
  | cons field fields ih =>
      obtain ⟨name, value⟩ := field
      rw [ofFields, List.mapM_cons]
      simp only [Option.bind_eq_bind, Option.bind_eq_some_iff, textEntry?_ofJson_iff, ih]
      constructor
      · rintro ⟨entry, hentry, others, rfl, heq⟩
        cases heq
        rw [hentry]
        rfl
      · cases entries with
        | nil => simp [Json.textFields]
        | cons entry entries =>
            intro h
            obtain ⟨hentry, hrest⟩ := List.cons.inj h
            exact ⟨entry, hentry, entries, hrest, rfl⟩

theorem tableOf?_ofJson_iff {json : Json} {table : Keyed String} :
    (ofJson json).tableOf? .inner text? = some table ↔ json.IsTable table := by
  cases json with
  | object fields =>
      change ((ofFields fields).mapM textEntry?).bind (fun entries => some (Keyed.ofList entries)) =
        _ ↔ _
      simp only [Option.bind_eq_some_iff, mapM_textEntry?_iff, Option.some.injEq, Json.IsTable,
        Json.object.injEq]
  | _ => simp [ofJson, ofInt, tableOf?, Json.IsTable]

theorem choice?_ofJson_iff {json : Json} {names : List String} {name : String} :
    (ofJson json).choice? .inner names = some name ↔ name ∈ names ∧ json.IsChoice name := by
  cases json with
  | string text =>
      simp only [ofJson, choice?, Json.IsChoice]
      grind
  | object fields =>
      rcases fields with _ | ⟨⟨key, value⟩, _ | ⟨field, fields⟩⟩
      · simp [ofJson, ofFields, choice?, Json.IsChoice]
      · cases value <;>
          simp [ofJson, ofInt, ofFields, choice?, nameOf?, Json.IsChoice]
        grind
      · simp [ofJson, ofFields, choice?, Json.IsChoice]
  | _ => simp [ofJson, ofInt, choice?, Json.IsChoice]

section

variable {names : List String} {fields : List (String × Json)}

def Unrepeated (names : List String) (fields : List (String × Json)) : Prop :=
  ((fields.filter fun field => names.contains field.1).map Prod.fst).Nodup

theorem unrepeated_of_nodup (h : (fields.map Prod.fst).Nodup) : Unrepeated names fields :=
  h.sublist (List.filter_sublist.map Prod.fst)

def asked (names : List String) (fields : List (String × Json)) : Record :=
  ((fields.map fun field => (field.1, ofJson field.2)).filter fun entry =>
    names.contains entry.1).reverse

theorem nodup_asked_iff :
    ((asked names fields).map Prod.fst).Nodup ↔ Unrepeated names fields := by
  rw [asked, List.map_reverse, List.nodup_reverse, List.filter_map, List.map_map]
  rfl

theorem record?_object_iff {level : Level} {record : Record} :
    (ofJson (.object fields)).record? level names = some record ↔
      Unrepeated names fields ∧ asked names fields = record := by
  have hempty : (([] : Record).map Prod.fst).Nodup := List.nodup_nil
  rw [← nodup_asked_iff, asked, List.map_reverse, List.nodup_reverse, ofJson, ofFields_eq_ofRecord,
    record?, collect?_ofRecord_eq_some_iff level names hempty, List.append_nil, List.append_nil]

theorem lookup_asked (h : Unrepeated names fields) {name : String} (hname : name ∈ names) :
    (asked names fields).lookup name = (fields.lookup name).map ofJson := by
  have hnodup := nodup_asked_iff.mpr h
  have hnodup' := hnodup
  rw [asked, List.map_reverse, List.nodup_reverse] at hnodup'
  rw [← Keyed.lookup_map, ← Keyed.lookup_filter (List.contains_iff_mem.mpr hname) (fields.map _)]
  apply Keyed.lookup_eq_of_mem_iff hnodup hnodup'
  intro value
  rw [asked, List.mem_reverse]

variable {α : Type} {item? : Document → Option α} {item value : α}

theorem require?_asked_iff (h : Unrepeated names fields) {name : String} (hname : name ∈ names) :
    (asked names fields).require? name item? = some item ↔
      ∃ json, fields.lookup name = some json ∧ item? (ofJson json) = some item := by
  rw [Record.require?, lookup_asked h hname]
  cases fields.lookup name <;> simp

theorem default?_asked_iff (h : Unrepeated names fields) {name : String} (hname : name ∈ names) :
    (asked names fields).default? name value item? = some item ↔
      (fields.lookup name = none ∧ value = item) ∨
        ∃ json, fields.lookup name = some json ∧ item? (ofJson json) = some item := by
  rw [Record.default?, lookup_asked h hname]
  cases fields.lookup name <;> simp

end

end Document

end ScanPath
