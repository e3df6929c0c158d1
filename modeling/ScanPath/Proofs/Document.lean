import ScanPath.Document
import ScanPath.Proofs.Json

/-!
# Canonical values read back

A canonical object lists its fields in order of their names, and a record takes
them in any order.  So a record holds under a name what was written under it,
and fields that nobody asks for change nothing.  A tagged object gives its kind
and, in what remains, the other fields as they were.
-/

namespace ScanPath.Document

open Json

def ofCanonical (json : Json) : Document := ofJson json.canonical

@[simp] theorem bool?_ofCanonical (value : Bool) :
    (ofCanonical (.bool value)).bool? = some value := rfl

@[simp] theorem text?_ofCanonical (value : String) :
    (ofCanonical (.string value)).text? = some value := rfl

@[simp] theorem count?_ofNat (n : Nat) : (ofCanonical (.ofNat n)).count? = some n := by
  have hsign : decide ((n : Int) < 0) = false :=
    decide_eq_false (Int.not_lt.mpr (Int.natCast_nonneg n))
  simp [Json.ofNat, ofCanonical, canonical, ofJson, ofInt, count?, hsign]

theorem float?_ofFloat {x : Float} (h : x.isFinite = true) :
    (ofCanonical (.ofFloat x)).float? = some x := by
  rw [ofCanonical, canonical_ofFloat, ofFloat, if_pos h]
  rfl

theorem orNull?_optional {x : Option Float} (h : ∀ value ∈ x, value.isFinite = true) :
    (ofCanonical (Json.optional .ofFloat x)).orNull? float? = some x := by
  cases x with
  | none => rfl
  | some x =>
      have hfinite : x.isFinite = true := h x rfl
      rw [ofCanonical, canonical_optional_ofFloat, Json.optional, ofFloat, if_pos hfinite]
      rfl

theorem ofItems_eq_map (items : List Json) : ofItems items = items.map ofJson := by
  induction items with
  | nil => rfl
  | cons item items ih => rw [ofItems, ih, List.map_cons]

theorem ofCanonical_array {α : Type} (encode : α → Json) (items : List α) :
    ofCanonical (.array (items.map encode)) =
      .list (items.map fun item => ofCanonical (encode item)) := by
  rw [ofCanonical, canonical, canonicalItems_eq_map, ofJson, ofItems_eq_map, List.map_map,
    List.map_map]
  rfl

theorem mapM_map_eq_some {α β : Type} {item? : β → Option α} {write : α → β} {items : List α}
    (h : ∀ item ∈ items, item? (write item) = some item) :
    (items.map write).mapM item? = some items := by
  induction items with
  | nil => rfl
  | cons item items ih =>
      rw [List.forall_mem_cons] at h
      rw [List.map_cons, List.mapM_cons, h.1, ih h.2]
      rfl

section Items

variable {α : Type} {item? : Document → Option α} {encode : α → Json} {items : List α}

theorem listOf?_array (level : Level)
    (h : ∀ item ∈ items, item? (ofCanonical (encode item)) = some item) :
    (ofCanonical (.array (items.map encode))).listOf? level item? = some items := by
  rw [ofCanonical_array]
  exact mapM_map_eq_some h

theorem oneOrMany?_array (hbare : ∀ documents, item? (.list documents) = none)
    (h : ∀ item ∈ items, item? (ofCanonical (encode item)) = some item) :
    (ofCanonical (.array (items.map encode))).oneOrMany? item? = some items := by
  rw [oneOrMany?, listOf?_array .inner h, ofCanonical_array, hbare]

end Items

@[simp] theorem listOf?_strings (level : Level) (items : List String) :
    (ofCanonical (.strings items)).listOf? level text? = some items :=
  listOf?_array level fun item _ => text?_ofCanonical item

@[simp] theorem oneOrMany?_strings (items : List String) :
    (ofCanonical (.strings items)).oneOrMany? text? = some items :=
  oneOrMany?_array (fun _ => rfl) fun item _ => text?_ofCanonical item

theorem listOf?_floats (level : Level) {items : List Float}
    (h : ∀ x ∈ items, x.isFinite = true) :
    (ofCanonical (.floats items)).listOf? level float? = some items :=
  listOf?_array level fun x hmem => float?_ofFloat (h x hmem)

theorem oneOrMany?_floats {items : List Float} (h : ∀ x ∈ items, x.isFinite = true) :
    (ofCanonical (.floats items)).oneOrMany? float? = some items :=
  oneOrMany?_array (fun _ => rfl) fun x hmem => float?_ofFloat (h x hmem)

theorem pair?_floats {pair : Float × Float} (h : ∀ x ∈ [pair.1, pair.2], x.isFinite = true) :
    (ofCanonical (.floats [pair.1, pair.2])).pair? = some pair := by
  have hfirst := float?_ofFloat (h pair.1 List.mem_cons_self)
  have hsecond := float?_ofFloat (h pair.2 (List.mem_cons_of_mem _ List.mem_cons_self))
  rw [floats, ofCanonical_array, List.map_cons, List.map_singleton, pair?, hfirst, hsecond]
  rfl

def ofRecord (record : Record) : List (Document × Document) :=
  record.map fun (name, value) => (.text name, value)

theorem ofRecord_cons (name : String) (value : Document) (entries : Record) :
    ofRecord ((name, value) :: entries) = (.text name, value) :: ofRecord entries := rfl

theorem ofFields_eq_ofRecord (fields : List (String × Json)) :
    ofFields fields = ofRecord (fields.map fun field => (field.1, ofJson field.2)) := by
  induction fields with
  | nil => rfl
  | cons field fields ih =>
      obtain ⟨name, value⟩ := field
      rw [ofFields, ih]
      rfl

theorem tableOf?_table {α : Type} {level : Level} {item? : Document → Option α} {encode : α → Json}
    {table : Keyed α}
    (h : ∀ entry ∈ table.entries, item? (ofCanonical (encode entry.2)) = some entry.2) :
    (ofCanonical (.object (table.map encode).entries)).tableOf? level item? = some table := by
  have hentries : (ofCanonical (.object (table.map encode).entries)) =
      .map (table.entries.map fun entry => (.text entry.1, ofCanonical (encode entry.2))) := by
    rw [ofCanonical, canonical_table, ofJson, ofFields_eq_ofRecord, ofRecord, Keyed.map,
      List.map_map, List.map_map]
    rfl
  rw [hentries, tableOf?, mapM_map_eq_some]
  · exact congrArg some (Keyed.ofList_entries table)
  · intro entry hmem
    simp [text?, h entry hmem]

/-- The document is a table of the fields, in some order. -/
def Lists (document : Document) (fields : List (String × Json)) : Prop :=
  ∃ record : Record, document = .map (ofRecord record) ∧ (record.map Prod.fst).Nodup ∧
    ∀ name, record.lookup name = (fields.lookup name).map ofCanonical

theorem lists_ofCanonical {fields : List (String × Json)} (h : (fields.map Prod.fst).Nodup) :
    (ofCanonical (.object fields)).Lists fields := by
  refine ⟨(orderedFields (canonicalFields fields)).map fun field => (field.1, ofJson field.2),
    ?_, ?_, ?_⟩
  · rw [ofCanonical, canonical, ofJson, ofFields_eq_ofRecord]
  · rw [List.map_map]
    exact Keyed.keys_nodup (Keyed.ofList (canonicalFields fields))
  · intro name
    rw [Keyed.lookup_map, lookup_orderedFields h, Option.map_map]
    rfl

/-! ## Records -/

theorem collect?_ofRecord_eq_some_iff (level : Level) (names : List String)
    {record : Record} (hrecord : (record.map Prod.fst).Nodup) (entries collected : Record) :
    collect? level names record (ofRecord entries) = some collected ↔
      (((entries.filter fun entry => names.contains entry.1) ++ record).map Prod.fst).Nodup ∧
        (entries.filter fun entry => names.contains entry.1).reverse ++ record = collected := by
  induction entries generalizing record with
  | nil => simp [ofRecord, collect?, hrecord]
  | cons entry entries ih =>
      obtain ⟨name, value⟩ := entry
      rw [ofRecord_cons, collect?, fieldOf?]
      cases hasked : names.contains name with
      | true =>
          simp only [List.filter_cons, hasked, if_true]
          cases hheld : (record.lookup name).isSome with
          | true =>
              have hmem : name ∈ record.map Prod.fst := Keyed.lookup_isSome_iff.mp hheld
              constructor
              · intro h
                simp [hheld] at h
              · rintro ⟨h, -⟩
                rw [List.cons_append, List.map_cons, List.nodup_cons, List.map_append] at h
                exact absurd (List.mem_append_right _ hmem) h.1
          | false =>
              -- the record grows at its head, and the names to come stay apart from it
              have hfresh : name ∉ record.map Prod.fst := fun hmem =>
                Bool.false_ne_true (hheld.symm.trans (Keyed.lookup_isSome_iff.mpr hmem))
              have hgrown := @ih ((name, value) :: record) (List.nodup_cons.mpr ⟨hfresh, hrecord⟩)
              rw [(List.perm_middle.map Prod.fst).nodup_iff] at hgrown
              rw [List.reverse_cons, List.append_assoc, List.singleton_append, List.cons_append,
                ← hgrown]
              simp [hheld]
      | false =>
          simp only [List.filter_cons, hasked]
          exact ih hrecord

theorem collect?_ofRecord (level : Level) (names : List String) {record entries : Record}
    (h : ((entries ++ record).map Prod.fst).Nodup) :
    collect? level names record (ofRecord entries) =
      some ((entries.filter fun entry => names.contains entry.1).reverse ++ record) := by
  have hsublist : ((entries.filter fun entry => names.contains entry.1) ++ record).Sublist
      (entries ++ record) := List.filter_sublist.append_right record
  have hrecord : record.Sublist (entries ++ record) := List.sublist_append_right entries record
  exact (collect?_ofRecord_eq_some_iff level names (h.sublist (hrecord.map Prod.fst)) _ _).mpr
    ⟨h.sublist (hsublist.map Prod.fst), rfl⟩

theorem Lists.record? {document : Document} {fields : List (String × Json)}
    (h : document.Lists fields) (level : Level) (names : List String) :
    ∃ record, document.record? level names = some record ∧
      ∀ name ∈ names, record.lookup name = (fields.lookup name).map ofCanonical := by
  obtain ⟨entries, rfl, hnodup, hlookup⟩ := h
  have hcollect := collect?_ofRecord level names ((List.append_nil entries).symm ▸ hnodup)
  refine ⟨_, hcollect, ?_⟩
  intro name hname
  rw [← hlookup, List.append_nil]
  apply Keyed.lookup_eq_of_mem_iff _ hnodup
  · intro value
    simp [hname]
  · apply ((List.reverse_perm _).map Prod.fst).nodup_iff.mpr
    exact hnodup.sublist (List.filter_sublist.map Prod.fst)

theorem Lists.exists_record {document : Document} {fields : List (String × Json)}
    (h : document.Lists fields) (level : Level) (names : List String)
    (hnames : fields.map Prod.fst = names) (hnodup : names.Nodup) :
    ∃ record, document.record? level names = some record ∧
      ∀ field ∈ fields, record.lookup field.1 = some (ofCanonical field.2) := by
  obtain ⟨record, hrecord, hlookup⟩ := h.record? level names
  refine ⟨record, hrecord, ?_⟩
  intro field hmem
  rw [hlookup field.1 (hnames ▸ List.mem_map_of_mem hmem),
    Keyed.lookup_of_mem (hnames ▸ hnodup) hmem, Option.map_some]

theorem record?_ofCanonical (json : Json) {fields : List (String × Json)}
    (hjson : json = .object fields) (level : Level) (names : List String)
    (hnames : fields.map Prod.fst = names) (hnodup : names.Nodup) :
    ∃ record, (ofCanonical json).record? level names = some record ∧
      ∀ field ∈ fields, record.lookup field.1 = some (ofCanonical field.2) := by
  subst hjson
  exact (lists_ofCanonical (hnames ▸ hnodup)).exists_record level names hnames hnodup

/-! ## Tagged documents -/

theorem any_text_ofRecord {tag : String} {entries : Record} (h : tag ∉ entries.map Prod.fst) :
    ((ofRecord entries).any fun entry => entry.1.text? = some tag) = false := by
  rw [List.any_eq_false]
  intro entry hmem
  obtain ⟨⟨name, value⟩, hentry, rfl⟩ := List.mem_map.mp hmem
  rw [decide_eq_true_iff]
  intro heq
  exact h (Option.some.inj heq ▸ List.mem_map_of_mem hentry)

theorem splitTag?_ofRecord {tag : String} {kind : Document} {entries : Record}
    (h : (entries.map Prod.fst).Nodup) (htag : entries.lookup tag = some kind) :
    splitTag? tag (ofRecord entries) =
      some (kind, ofRecord (entries.filter fun entry => entry.1 != tag)) := by
  induction entries with
  | nil => cases htag
  | cons entry entries ih =>
      obtain ⟨name, value⟩ := entry
      rw [List.map_cons, List.nodup_cons] at h
      obtain ⟨hfresh, hrest⟩ := h
      rw [ofRecord_cons, splitTag?]
      by_cases hname : name = tag
      · -- the tag does not come again, so the rest is what it was
        subst hname
        rw [List.lookup_cons_self] at htag
        obtain rfl := Option.some.inj htag
        have hothers : entries.filter (fun entry => entry.1 != name) = entries := by
          rw [List.filter_eq_self]
          intro entry hmem
          exact bne_iff_ne.mpr fun heq => hfresh (List.mem_map.mpr ⟨entry, hmem, heq⟩)
        rw [any_text_ofRecord hfresh, List.filter_cons_of_neg (by simp), hothers]
        simp [text?]
      · rw [List.lookup_cons, beq_false_of_ne (Ne.symm hname)] at htag
        rw [if_neg (by simpa [text?] using hname), ih hrest htag,
          List.filter_cons_of_pos (by simpa using hname), ofRecord_cons]
        rfl

theorem Lists.tagged? {document : Document} {tag kind : String} {fields : List (String × Json)}
    (h : document.Lists ((tag, .string kind) :: fields)) (htag : tag ∉ fields.map Prod.fst)
    (level : Level) {kinds : List String} (hkind : kind ∈ kinds) :
    ∃ rest, document.tagged? level tag kinds = some (kind, rest) ∧ rest.Lists fields := by
  obtain ⟨entries, rfl, hnodup, hlookup⟩ := h
  have htagged : entries.lookup tag = some (ofCanonical (.string kind)) := by
    rw [hlookup, List.lookup_cons_self, Option.map_some]
  have hsplit := splitTag?_ofRecord hnodup htagged
  refine ⟨_, ?_, entries.filter fun entry => entry.1 != tag, rfl, ?_, ?_⟩
  · change (splitTag? tag (ofRecord entries)).bind _ = _
    rw [hsplit]
    simp [ofCanonical, canonical, ofJson, nameOf?, hkind]
  · exact hnodup.sublist (List.filter_sublist.map Prod.fst)
  · intro name
    by_cases hname : name = tag
    · rw [hname, Keyed.lookup_eq_none_of_not_mem htag, Option.map_none]
      exact Keyed.lookup_eq_none_of_not_mem (by simp)
    · have hothers := hlookup name
      rw [List.lookup_cons, beq_false_of_ne hname] at hothers
      rw [← hothers]
      apply Keyed.lookup_eq_of_mem_iff (hnodup.sublist (List.filter_sublist.map Prod.fst)) hnodup
      intro value
      simp [hname]

theorem tagged?_ofCanonical (json : Json) {tag kind : String} {fields : List (String × Json)}
    (hjson : json = .object ((tag, .string kind) :: fields)) (names : List String)
    (hnames : fields.map Prod.fst = names) (hnodup : (tag :: names).Nodup) (level : Level)
    {kinds : List String} (hkind : kind ∈ kinds) :
    ∃ rest, (ofCanonical json).tagged? level tag kinds = some (kind, rest) ∧ rest.Lists fields := by
  subst hjson hnames
  have hlists : (ofCanonical (.object ((tag, .string kind) :: fields))).Lists _ :=
    lists_ofCanonical hnodup
  exact hlists.tagged? (List.nodup_cons.mp hnodup).1 level hkind

theorem depth_lt_of_mem {item : Document} {items : List Document} (h : item ∈ items) :
    item.depth < (list items).depth := by
  rw [depth, Nat.lt_succ_iff]
  induction items with
  | nil => cases h
  | cons first items ih =>
      rcases List.mem_cons.mp h with rfl | h
      · exact Nat.le_max_left _ _
      · exact Nat.le_trans (ih h) (Nat.le_max_right _ _)

theorem depth_lt_of_mem_entries {key value : Document} {entries : List (Document × Document)}
    (h : (key, value) ∈ entries) : value.depth < (map entries).depth := by
  rw [depth, Nat.lt_succ_iff]
  induction entries with
  | nil => cases h
  | cons entry entries ih =>
      obtain ⟨first, second⟩ := entry
      rcases List.mem_cons.mp h with heq | h
      · cases heq
        exact Nat.le_trans (Nat.le_max_right _ _) (Nat.le_max_left _ _)
      · exact Nat.le_trans (ih h) (Nat.le_max_right _ _)

theorem Lists.depth_lt {document : Document} {fields : List (String × Json)}
    (h : document.Lists fields) {name : String} {value : Json}
    (hvalue : fields.lookup name = some value) :
    (ofCanonical value).depth < document.depth := by
  obtain ⟨entries, rfl, hnodup, hlookup⟩ := h
  have hentry := hlookup name
  rw [hvalue, Option.map_some, Keyed.lookup_eq_some_iff hnodup] at hentry
  exact depth_lt_of_mem_entries (List.mem_map.mpr ⟨_, hentry, rfl⟩)

end ScanPath.Document
