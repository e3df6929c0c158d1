import ScanPath.Proofs.Binary64
import ScanPath.Proofs.Document
import ScanPath.Proofs.Projection

/-!
# Points written and read back

A point is written with its form under `shape`, and no form has a field of that
name; the entries of a list stand in an object of their own, so an axis may have
any name.  What is read back lists its entries in order of their names.  It is
equal to what was written, since the order of entries does not count, and finds
the same on every axis.
-/

namespace ScanPath

open Document

instance : BEq AxisEntry := ⟨fun first second =>
  first.axis == second.axis && first.index == second.index && first.value == second.value⟩

namespace PointShape

/-- Values are compared as numbers, and the entries of a list in any order. -/
def same : PointShape → PointShape → Bool
  | .scalar first, .scalar second => first == second
  | .pair x y names, .pair x' y' names' => x == x' && y == y' && names == names'
  | .map entries names, .map others names' =>
      entries.length == others.length &&
        entries.all (fun entry => others.lookup entry.1 == some entry.2) && names == names'
  | _, _ => false

instance : BEq PointShape := ⟨same⟩

def Finite (shape : PointShape) : Prop := ∀ entry ∈ shape.held, entry.2.value.isFinite = true

/-- The entries of a list are a table: no two of them are of one axis. -/
def Tabled : PointShape → Prop
  | .map entries _ => (entries.map Prod.fst).Nodup
  | _ => True

theorem beq_entry_self {entry : AxisEntry} (h : entry.value.isFinite = true) :
    (entry == entry) = true := by
  change (entry.axis == entry.axis && entry.index == entry.index && entry.value == entry.value) =
    true
  simp [beq_self_of_isFinite h]

theorem beq_point_self {point : AxisPoint} (h : point.value.isFinite = true) :
    (point == point) = true := by
  change (point.value == point.value && point.index == point.index) = true
  simp [beq_self_of_isFinite h]

theorem same_map_of_perm {entries others : List (String × AxisPoint)} (h : entries.Perm others)
    (hfinite : ∀ entry ∈ entries, entry.2.value.isFinite = true)
    (hothers : (others.map Prod.fst).Nodup) (names : List (List String)) :
    same (.map entries names) (.map others names) = true := by
  simp only [same, Bool.and_eq_true, beq_iff_eq, List.all_eq_true, and_true]
  refine ⟨h.length_eq, ?_⟩
  intro entry hmem
  rw [Keyed.lookup_of_mem hothers (h.mem_iff.mp hmem)]
  exact beq_point_self (hfinite entry hmem)

theorem decodePoint?_encode {point : AxisPoint} (h : point.value.isFinite = true) (level : Level) :
    Position.decodePoint? level (ofCanonical (Position.encodePoint point)) = some point := by
  obtain ⟨record, hrecord, hfields⟩ :=
    record?_ofCanonical (Position.encodePoint point) rfl level ["value", "index"] rfl (by decide)
  simp only [List.forall_mem_cons] at hfields
  obtain ⟨hvalue, hindex, -⟩ := hfields
  simp [Position.decodePoint?, hrecord, Record.require?, hvalue, hindex, float?_ofFloat h]

theorem decodeMember?_of_lists {entry : AxisEntry} (h : entry.value.isFinite = true)
    {document : Document} (hlists : document.Lists (encodeEntryFields entry)) :
    decodeMember? document = some entry := by
  obtain ⟨record, hrecord, hfields⟩ :=
    hlists.exists_record .inner ["axis", "index", "value"] rfl (by decide)
  simp only [encodeEntryFields, List.forall_mem_cons] at hfields
  obtain ⟨haxis, hindex, hvalue, -⟩ := hfields
  simp [decodeMember?, hrecord, Record.require?, haxis, hindex, hvalue, float?_ofFloat h]

theorem decodeMember?_encode {entry : AxisEntry} (h : entry.value.isFinite = true) :
    decodeMember? (ofCanonical (.object (encodeEntryFields entry))) = some entry :=
  decodeMember?_of_lists h (lists_ofCanonical (show ["axis", "index", "value"].Nodup by decide))

theorem decodeNames?_encode (names : List (List String)) :
    decodeNames? (ofCanonical (encodeNames names)) = some names :=
  listOf?_array .inner fun items _ => listOf?_strings .inner items

theorem orNull?_encodeNames (names : List (List String)) :
    (ofCanonical (encodeNames names)).orNull? decodeNames? = some (some names) :=
  congrArg (Option.map some) (decodeNames?_encode names)

theorem foldl_entries {known entries : List (String × AxisPoint)}
    (h : ((known ++ entries).map Prod.fst).Nodup) :
    entries.foldl (fun known (key, point) =>
      if (known.lookup key).isSome then
        known.map fun entry => if entry.1 = key then (key, point) else entry
      else known ++ [(key, point)]) known = known ++ entries := by
  induction entries generalizing known with
  | nil => simp
  | cons entry entries ih =>
      obtain ⟨key, point⟩ := entry
      have hfresh : (known.lookup key).isSome = false := by
        rw [Bool.eq_false_iff, ne_eq, Keyed.lookup_isSome_iff]
        intro hmem
        rw [List.map_append, List.map_cons, List.nodup_append] at h
        exact h.2.2 key hmem key List.mem_cons_self rfl
      rw [List.append_cons] at h
      simp only [List.foldl_cons, hfresh, Bool.false_eq_true, if_false]
      rw [ih h, ← List.append_cons]

def encodeEntries (entries : List (String × AxisPoint)) : Json :=
  .object (entries.map fun entry => (entry.1, Position.encodePoint entry.2))

theorem ofCanonical_encodeEntries (entries : List (String × AxisPoint)) :
    ofCanonical (encodeEntries entries) = .map ((Keyed.ofList entries).entries.map fun entry =>
      (.text entry.1, ofCanonical (Position.encodePoint entry.2))) := by
  have htable : Json.orderedFields (Json.canonicalFields
      (entries.map fun entry => (entry.1, Position.encodePoint entry.2))) =
      ((Keyed.ofList entries).map fun point => (Position.encodePoint point).canonical).entries := by
    rw [Json.canonicalFields_eq_map, List.map_map]
    exact congrArg Keyed.entries (Keyed.map_insertAll
      (fun point => (Position.encodePoint point).canonical) ∅ entries).symm
  rw [encodeEntries, ofCanonical, Json.canonical, htable, ofJson, ofFields_eq_ofRecord, ofRecord,
    Keyed.map, List.map_map, List.map_map]
  rfl

theorem decodeEntries?_encode {entries : List (String × AxisPoint)}
    (hfinite : ∀ entry ∈ entries, entry.2.value.isFinite = true)
    (hnodup : (entries.map Prod.fst).Nodup) :
    decodeEntries? (ofCanonical (encodeEntries entries)) = some (Keyed.ofList entries).entries := by
  rw [ofCanonical_encodeEntries, decodeEntries?, mapM_map_eq_some]
  · exact congrArg some (@foldl_entries [] _ (Keyed.keys_nodup _))
  · intro entry hmem
    have hentry := (Keyed.entries_ofList_perm hnodup).mem_iff.mp hmem
    simp [text?, decodePoint?_encode (hfinite entry hentry)]

def kinds : List String := ["scalar", "pair", "map"]

theorem decode?_scalar {entry : AxisEntry} (h : entry.value.isFinite = true) :
    decode? (ofCanonical (encode (.scalar entry))) = some (.scalar entry) := by
  obtain ⟨rest, htagged, hrest⟩ := tagged?_ofCanonical (encode (.scalar entry)) rfl
    ["axis", "index", "value"] rfl (by decide) .outer (show "scalar" ∈ kinds by decide)
  rw [kinds] at htagged
  simp [decode?, htagged, decodeMember?_of_lists h hrest]

def pairFields (x y : AxisEntry) (names : Option (List (List String))) : List (String × Json) :=
  [("x", .object (encodeEntryFields x)), ("y", .object (encodeEntryFields y))] ++
    (names.map fun names => ("dimension_names", encodeNames names)).toList

theorem encode_pair (x y : AxisEntry) (names : Option (List (List String))) :
    encode (.pair x y names) = .object (("shape", .string "pair") :: pairFields x y names) := by
  cases names <;> rfl

theorem decode?_pair {x y : AxisEntry} (hx : x.value.isFinite = true)
    (hy : y.value.isFinite = true) (names : Option (List (List String))) :
    decode? (ofCanonical (encode (.pair x y names))) = some (.pair x y names) := by
  obtain ⟨rest, htagged, hrest⟩ := tagged?_ofCanonical _ (encode_pair x y names) _ rfl
    (by cases names <;> simp [pairFields]) .outer (show "pair" ∈ kinds by decide)
  rw [kinds] at htagged
  obtain ⟨record, hrecord, hlookup⟩ := hrest.record? .inner ["x", "y", "dimension_names"]
  simp only [List.forall_mem_cons] at hlookup
  obtain ⟨hx', hy', hnames, -⟩ := hlookup
  change record.lookup "x" = some (ofCanonical (.object (encodeEntryFields x))) at hx'
  change record.lookup "y" = some (ofCanonical (.object (encodeEntryFields y))) at hy'
  have hdefault : record.default? "dimension_names" none (orNull? decodeNames?) = some names := by
    rw [Record.default?, hnames]
    cases names with
    | none => rfl
    | some names => exact orNull?_encodeNames names
  simp [decode?, htagged, hrecord, Record.require?, hx', hy', hdefault, decodeMember?_encode hx,
    decodeMember?_encode hy]

theorem decode?_map {entries : List (String × AxisPoint)}
    (hfinite : ∀ entry ∈ entries, entry.2.value.isFinite = true)
    (hnodup : (entries.map Prod.fst).Nodup) (names : List (List String)) :
    decode? (ofCanonical (encode (.map entries names))) =
      some (.map (Keyed.ofList entries).entries names) := by
  obtain ⟨rest, htagged, hrest⟩ := tagged?_ofCanonical (encode (.map entries names)) rfl
    ["entries", "dimension_names"] rfl (by decide) .outer (show "map" ∈ kinds by decide)
  rw [kinds] at htagged
  obtain ⟨record, hrecord, hfields⟩ :=
    hrest.exists_record .inner ["entries", "dimension_names"] rfl (by decide)
  simp only [List.forall_mem_cons] at hfields
  obtain ⟨hentries, hnames, -⟩ := hfields
  change record.lookup "entries" = some (ofCanonical (encodeEntries entries)) at hentries
  simp [decode?, htagged, hrecord, Record.require?, hentries, hnames, decodeNames?_encode,
    decodeEntries?_encode hfinite hnodup]

/-- Whatever the names of its axes, a point with finite values is read back from its canonical form
as an equal point, on which every axis finds what it found before. -/
theorem decode?_encode_same {shape : PointShape} (hfinite : shape.Finite) (htabled : shape.Tabled) :
    ∃ decoded, decode? (ofCanonical shape.encode) = some decoded ∧ (decoded == shape) = true ∧
      ∀ axis, decoded.value? axis = shape.value? axis ∧
        decoded.index? axis = shape.index? axis := by
  cases shape with
  | scalar entry =>
      have hentry := hfinite _ List.mem_cons_self
      exact ⟨_, decode?_scalar hentry, beq_entry_self hentry, fun _ => ⟨rfl, rfl⟩⟩
  | pair x y names =>
      have hx := hfinite _ List.mem_cons_self
      have hy := hfinite _ (List.mem_cons_of_mem _ List.mem_cons_self)
      refine ⟨_, decode?_pair hx hy names, ?_, fun _ => ⟨rfl, rfl⟩⟩
      change (x == x && y == y && names == names) = true
      simp [beq_entry_self hx, beq_entry_self hy]
  | map entries names =>
      have hperm := Keyed.entries_ofList_perm htabled
      refine ⟨_, decode?_map hfinite htabled names, ?_, ?_⟩
      · exact same_map_of_perm hperm (fun entry hmem => hfinite entry (hperm.mem_iff.mp hmem))
          htabled names
      · intro axis
        have hpoint : point? (.map (Keyed.ofList entries).entries names) axis =
            point? (.map entries names) axis := Keyed.get?_ofList htabled axis
        exact ⟨congrArg (Option.map AxisPoint.value) hpoint,
          congrArg (Option.map AxisPoint.index) hpoint⟩

def fieldNamed : PointShape :=
  .map [("x", ⟨-0.0, 18446744073709551615⟩), ("shape", ⟨0.1, 0⟩), ("entries", ⟨1.0e300, 2⟩)]
    [["x"], [], ["shape", "entries"]]

theorem decode?_encode_same_fieldNamed :
    fieldNamed.Finite ∧ fieldNamed.Tabled ∧
      ∃ decoded, decode? (ofCanonical fieldNamed.encode) = some decoded ∧
        (decoded == fieldNamed) = true ∧ decoded.index? "x" = some 18446744073709551615 ∧
        decoded.value? "shape" = some 0.1 := by
  have hfinite : fieldNamed.Finite := by
    have hall : (fieldNamed.held.all fun entry => entry.2.value.isFinite) = true := by
      decide +kernel
    exact List.all_eq_true.mp hall
  have htabled : fieldNamed.Tabled := show ["x", "shape", "entries"].Nodup by decide
  obtain ⟨decoded, hdecoded, hequal, hfound⟩ := decode?_encode_same hfinite htabled
  exact ⟨hfinite, htabled, decoded, hdecoded, hequal, (hfound "x").2, (hfound "shape").1⟩

end PointShape

end ScanPath
