import ScanPath.Fault
import ScanPath.Proofs.Document.Objects
import ScanPath.Proofs.Json.Reading

/-!
# Faults read back

The values that stand for a fault are told by their fields: the context and the
hint may be missing, the hint may be null, and fields that nobody asks for may
stand among the others.  A detail may be a bare list of its four values, a fault
a list of its family and its detail, and the family a table from its name to
null.  A fault is decoded from these values and from no others.  What is written
for a fault is one of them in either order of its fields, so a fault is read
back from its text.
-/

namespace ScanPath

namespace Detail

def fieldNames : List String := ["code", "message", "context", "hint"]

/-- The values that stand for a detail. -/
inductive SpelledBy (detail : Detail) : Json → Prop where
  | named {fields : List (String × Json)} (unrepeated : Document.Unrepeated fieldNames fields)
      (code : fields.lookup "code" = some (.string detail.code))
      (message : fields.lookup "message" = some (.string detail.message))
      (context : (fields.lookup "context" = none ∧ ∅ = detail.context) ∨
        ∃ json, fields.lookup "context" = some json ∧ json.IsTable detail.context)
      (hint : (fields.lookup "hint" = none ∧ none = detail.hint) ∨
        fields.lookup "hint" = some (.optional .string detail.hint)) :
      detail.SpelledBy (.object fields)
  | listed {context : Json} (table : context.IsTable detail.context) :
      detail.SpelledBy
        (.array [.string detail.code, .string detail.message, context,
          .optional .string detail.hint])

end Detail

namespace Fault

def fieldNames : List String := ["family", "detail"]

/-- The values that stand for a fault. -/
inductive SpelledBy (fault : Fault) : Json → Prop where
  | named {fields : List (String × Json)} {kind content : Json}
      (unrepeated : Document.Unrepeated fieldNames fields)
      (family : fields.lookup "family" = some kind) (choice : kind.IsChoice fault.family)
      (detail : fields.lookup "detail" = some content)
      (spelled : fault.detail.SpelledBy content) : fault.SpelledBy (.object fields)
  | listed {kind content : Json} (choice : kind.IsChoice fault.family)
      (spelled : fault.detail.SpelledBy content) : fault.SpelledBy (.array [kind, content])

end Fault

/-! ## Decoding -/

open Document

namespace Detail

theorem assembled_iff {detail : Detail} {hint : Option (Option String)}
    {code message : Option String} {context : Option (Keyed String)} :
    (hint.bind fun hint => code.bind fun code => message.bind fun message =>
      context.bind fun context => some (⟨code, message, context, hint⟩ : Detail)) = some detail ↔
    code = some detail.code ∧ message = some detail.message ∧ context = some detail.context ∧
      hint = some detail.hint := by
  simp only [Option.bind_eq_some_iff, Option.some.injEq]
  constructor
  · rintro ⟨hint, rfl, code, rfl, message, rfl, context, rfl, rfl⟩
    exact ⟨rfl, rfl, rfl, rfl⟩
  · rintro ⟨rfl, rfl, rfl, rfl⟩
    exact ⟨_, rfl, _, rfl, _, rfl, _, rfl, rfl⟩

theorem decode?_map_iff {detail : Detail} {entries : List (Document × Document)} :
    decode? (.map entries) = some detail ↔
      ∃ record, (Document.map entries).record? .inner fieldNames = some record ∧
        record.require? "code" text? = some detail.code ∧
        record.require? "message" text? = some detail.message ∧
        record.default? "context" ∅ (tableOf? .inner text?) = some detail.context ∧
        record.default? "hint" none (orNull? text?) = some detail.hint :=
  Option.bind_eq_some_iff.trans <| exists_congr fun _ => and_congr_right fun _ => assembled_iff

theorem decode?_list_iff {detail : Detail} {items : List Document} :
    decode? (.list items) = some detail ↔
      ∃ record, (Document.list items).record? .inner fieldNames = some record ∧
        record.require? "code" text? = some detail.code ∧
        record.require? "message" text? = some detail.message ∧
        record.default? "context" ∅ (tableOf? .inner text?) = some detail.context ∧
        record.require? "hint" (orNull? text?) = some detail.hint :=
  Option.bind_eq_some_iff.trans <| exists_congr fun _ => and_congr_right fun _ => assembled_iff

theorem decode?_object_iff {detail : Detail} {fields : List (String × Json)} :
    decode? (ofJson (.object fields)) = some detail ↔ detail.SpelledBy (.object fields) := by
  rw [ofJson, decode?_map_iff, ← ofJson]
  simp only [record?_object_iff]
  constructor
  · rintro ⟨record, ⟨hunrepeated, rfl⟩, hcode, hmessage, hcontext, hhint⟩
    rw [require?_asked_iff hunrepeated (by decide)] at hcode hmessage
    rw [default?_asked_iff hunrepeated (by decide)] at hcontext hhint
    simp only [text?_ofJson_iff, exists_eq_right] at hcode hmessage
    simp only [orNull?_ofJson_iff, exists_eq_right] at hhint
    simp only [tableOf?_ofJson_iff] at hcontext
    exact .named hunrepeated hcode hmessage hcontext hhint
  · rintro ⟨hunrepeated, hcode, hmessage, hcontext, hhint⟩
    refine ⟨_, ⟨hunrepeated, rfl⟩, ?_⟩
    rw [require?_asked_iff hunrepeated (by decide), require?_asked_iff hunrepeated (by decide),
      default?_asked_iff hunrepeated (by decide), default?_asked_iff hunrepeated (by decide)]
    simp only [text?_ofJson_iff, exists_eq_right, orNull?_ofJson_iff, tableOf?_ofJson_iff]
    exact ⟨hcode, hmessage, hcontext, hhint⟩

theorem decode?_array_iff {detail : Detail} {items : List Json} :
    decode? (ofJson (.array items)) = some detail ↔ detail.SpelledBy (.array items) := by
  rw [ofJson, decode?_list_iff]
  rcases items with _ | ⟨code, _ | ⟨message, _ | ⟨context, _ | ⟨hint, _ | ⟨other, items⟩⟩⟩⟩⟩
  -- with fewer than four values there is none for the hint
  iterate 4
    constructor
    · rintro ⟨record, hrecord, -, -, -, hhint⟩
      cases hrecord
      cases hhint
    · rintro ⟨⟩
  · constructor
    · rintro ⟨record, hrecord, hcode, hmessage, hcontext, hhint⟩
      cases hrecord
      obtain rfl := text?_ofJson_iff.mp hcode
      obtain rfl := text?_ofJson_iff.mp hmessage
      obtain rfl := orNull?_ofJson_iff.mp hhint
      exact .listed (tableOf?_ofJson_iff.mp hcontext)
    · intro h
      cases h with
      | listed htable =>
          exact ⟨_, rfl, rfl, rfl, tableOf?_ofJson_iff.mpr htable, orNull?_ofJson_iff.mpr rfl⟩
  · constructor
    · rintro ⟨record, hrecord, -⟩
      simp [record?, ofItems, fieldNames] at hrecord
      exact absurd hrecord.1 (by omega)
    · rintro ⟨⟩

theorem decode?_ofJson_iff {detail : Detail} {json : Json} :
    decode? (ofJson json) = some detail ↔ detail.SpelledBy json := by
  cases json with
  | object fields => exact decode?_object_iff
  | array items => exact decode?_array_iff
  | _ =>
      constructor
      · rintro ⟨⟩
      · rintro ⟨⟩

end Detail

namespace Fault

theorem family_mem_families (fault : Fault) : fault.family ∈ families := by
  cases fault <;> simp [family, families]

theorem decode?_iff {fault : Fault} {document : Document} :
    decode? document = some fault ↔
      ∃ record, document.record? .inner fieldNames = some record ∧
        record.require? "family" (choice? .inner families) = some fault.family ∧
        record.require? "detail" Detail.decode? = some fault.detail := by
  refine Option.bind_eq_some_iff.trans <| exists_congr fun record => and_congr_right fun _ => ?_
  simp only [Option.bind_eq_bind, Option.bind_eq_some_iff]
  constructor
  · rintro ⟨detail, hdetail, family, hfamily, h⟩
    split at h <;> cases h
    all_goals exact ⟨hfamily, hdetail⟩
  · rintro ⟨hfamily, hdetail⟩
    refine ⟨_, hdetail, _, hfamily, ?_⟩
    cases fault <;> rfl

theorem decode?_object_iff {fault : Fault} {fields : List (String × Json)} :
    decode? (ofJson (.object fields)) = some fault ↔ fault.SpelledBy (.object fields) := by
  simp only [decode?_iff, record?_object_iff]
  constructor
  · rintro ⟨record, ⟨hunrepeated, rfl⟩, hfamily, hdetail⟩
    rw [require?_asked_iff hunrepeated (by decide)] at hfamily hdetail
    obtain ⟨kind, hkind, hfamily⟩ := hfamily
    obtain ⟨content, hcontent, hdetail⟩ := hdetail
    exact .named hunrepeated hkind (choice?_ofJson_iff.mp hfamily).2 hcontent
      (Detail.decode?_ofJson_iff.mp hdetail)
  · intro h
    cases h with
    | @named _ kind content hunrepeated hkind hchoice hcontent hspelled =>
        refine ⟨_, ⟨hunrepeated, rfl⟩, ?_⟩
        rw [require?_asked_iff hunrepeated (by decide), require?_asked_iff hunrepeated (by decide)]
        exact ⟨⟨kind, hkind, choice?_ofJson_iff.mpr ⟨fault.family_mem_families, hchoice⟩⟩,
          content, hcontent, Detail.decode?_ofJson_iff.mpr hspelled⟩

theorem decode?_array_iff {fault : Fault} {items : List Json} :
    decode? (ofJson (.array items)) = some fault ↔ fault.SpelledBy (.array items) := by
  rw [decode?_iff, ofJson]
  rcases items with _ | ⟨kind, _ | ⟨content, _ | ⟨other, items⟩⟩⟩
  -- with fewer than two values there is none for the detail
  iterate 2
    constructor
    · rintro ⟨record, hrecord, -, hdetail⟩
      cases hrecord
      cases hdetail
    · rintro ⟨⟩
  · constructor
    · rintro ⟨record, hrecord, hfamily, hdetail⟩
      cases hrecord
      exact .listed (choice?_ofJson_iff.mp hfamily).2 (Detail.decode?_ofJson_iff.mp hdetail)
    · intro h
      cases h with
      | listed hchoice hspelled =>
          exact ⟨_, rfl, choice?_ofJson_iff.mpr ⟨fault.family_mem_families, hchoice⟩,
            Detail.decode?_ofJson_iff.mpr hspelled⟩
  · constructor
    · rintro ⟨record, hrecord, -⟩
      simp [record?, ofItems, fieldNames] at hrecord
    · rintro ⟨⟩

theorem decode?_ofJson_iff {fault : Fault} {json : Json} :
    decode? (ofJson json) = some fault ↔ fault.SpelledBy json := by
  cases json with
  | object fields => exact decode?_object_iff
  | array items => exact decode?_array_iff
  | _ =>
      constructor
      · rintro ⟨⟩
      · rintro ⟨⟩

end Fault

theorem Detail.SpelledBy.canonical {detail : Detail} {json : Json} (h : detail.SpelledBy json)
    (hsound : json.Everywhere Json.Sound) : detail.SpelledBy json.canonical := by
  have hoptional : (Json.optional .string detail.hint).canonical =
      .optional .string detail.hint := by
    cases detail.hint <;> rfl
  cases h with
  | named hunrepeated hcode hmessage hcontext hhint =>
      have hlookup := Json.lookup_orderedFields hsound.1
      refine .named (unrepeated_of_nodup (Keyed.keys_nodup _)) ?_ ?_ ?_ ?_
      · rw [hlookup, hcode]
        rfl
      · rw [hlookup, hmessage]
        rfl
      · rw [hlookup]
        rcases hcontext with ⟨hmissing, hempty⟩ | ⟨context, hcontext, htable⟩
        · exact .inl ⟨by rw [hmissing]; rfl, hempty⟩
        · exact .inr ⟨context.canonical, by rw [hcontext]; rfl, htable.canonical⟩
      · rw [hlookup]
        rcases hhint with ⟨hmissing, hnone⟩ | hhint
        · exact .inl ⟨by rw [hmissing]; rfl, hnone⟩
        · exact .inr (by rw [hhint, Option.map_some, hoptional])
  | listed htable =>
      simp only [Json.canonical, Json.canonicalItems, hoptional]
      exact .listed htable.canonical

theorem Fault.SpelledBy.canonical {fault : Fault} {json : Json} (h : fault.SpelledBy json)
    (hsound : json.Everywhere Json.Sound) : fault.SpelledBy json.canonical := by
  cases h with
  | @named fields kind content hunrepeated hfamily hchoice hcontent hspelled =>
      have hlookup := Json.lookup_orderedFields hsound.1
      have hinside : content.Everywhere Json.Sound :=
        Json.everywhereFields_iff.mp hsound.2 _ ((Keyed.lookup_eq_some_iff hsound.1).mp hcontent)
      refine .named (unrepeated_of_nodup (Keyed.keys_nodup _)) ?_ hchoice.canonical ?_
        (hspelled.canonical hinside)
      · rw [hlookup, hfamily]
        rfl
      · rw [hlookup, hcontent]
        rfl
  | listed hchoice hspelled =>
      exact .listed hchoice.canonical (hspelled.canonical hsound.2.2.1)

/-! ## Encoded faults -/

section

variable {p : Json → Prop} (hstring : ∀ text, p (.string text))
  (hobject : ∀ fields, (fields.map Prod.fst).Nodup → p (.object fields))

namespace Detail

def fields (detail : Detail) : List (String × Json) :=
  [("code", .string detail.code), ("message", .string detail.message),
    ("context", .object (Json.textFields detail.context.entries))] ++
  match detail.hint with
  | none => []
  | some hint => [("hint", .string hint)]

end Detail

namespace Fault

def fields (fault : Fault) : List (String × Json) :=
  [("family", .string fault.family), ("detail", fault.detail.encode)]

end Fault

end

namespace Fault

def read? (text : String) : Option Fault :=
  (Json.parse? text).bind fun json => decode? (.ofJson json)

end Fault

end ScanPath
