import ScanPath.Keyed

/-!
# Laws of tables

Insertion commutes with a change of the values, and a table made from entries
with different names looks up what the list of entries does.  A table is what is
made from its own entries.
-/

namespace ScanPath.Keyed

variable {α β : Type}

theorem map_insert (f : α → β) (table : Keyed α) (key : String) (value : α) :
    (table.insert key value).map f = (table.map f).insert key (f value) := by
  apply ext
  simp only [map, insert]
  induction table.entries with
  | nil => rfl
  | cons entry rest ih =>
      simp only [insertEntry, List.map_cons]
      split
      · rfl
      · split
        · rw [List.map_cons, ih]
        · rfl

def insertAll (table : Keyed α) (entries : List (String × α)) : Keyed α :=
  entries.foldl (fun table entry => table.insert entry.1 entry.2) table

theorem insertAll_append (table : Keyed α) (entries others : List (String × α)) :
    table.insertAll (entries ++ others) = (table.insertAll entries).insertAll others :=
  List.foldl_append

theorem map_insertAll (f : α → β) (table : Keyed α) (entries : List (String × α)) :
    (table.insertAll entries).map f =
      (table.map f).insertAll (entries.map fun entry => (entry.1, f entry.2)) := by
  induction entries generalizing table with
  | nil => rfl
  | cons entry entries ih =>
      change ((table.insert entry.1 entry.2).insertAll entries).map f = _
      rw [ih, map_insert]
      rfl

theorem get?_insertAll_of_not_mem {table : Keyed α} {entries : List (String × α)} {key : String}
    (h : key ∉ entries.map Prod.fst) : (table.insertAll entries).get? key = table.get? key := by
  induction entries generalizing table with
  | nil => rfl
  | cons entry entries ih =>
      rw [List.map_cons, List.mem_cons, not_or] at h
      change ((table.insert entry.1 entry.2).insertAll entries).get? key = _
      rw [ih h.2, get?_insert_of_ne h.1]

theorem get?_insertAll {table : Keyed α} {entries : List (String × α)}
    (h : (entries.map Prod.fst).Nodup) (key : String) :
    (table.insertAll entries).get? key = (entries.lookup key).or (table.get? key) := by
  induction entries generalizing table with
  | nil => rfl
  | cons entry entries ih =>
      obtain ⟨name, value⟩ := entry
      rw [List.map_cons, List.nodup_cons] at h
      change ((table.insert name value).insertAll entries).get? key = _
      by_cases hkey : key = name
      · subst hkey
        rw [get?_insertAll_of_not_mem h.1, get?_insert_self, List.lookup_cons_self]
        rfl
      · rw [ih h.2, get?_insert_of_ne hkey, List.lookup_cons, beq_false_of_ne hkey]

theorem get?_ofList {entries : List (String × α)} (h : (entries.map Prod.fst).Nodup)
    (key : String) : (ofList entries).get? key = entries.lookup key := by
  change (insertAll ∅ entries).get? key = _
  rw [get?_insertAll h, get?_empty, Option.or_none]

theorem lookup_isSome_iff {entries : List (String × α)} {key : String} :
    (entries.lookup key).isSome = true ↔ key ∈ entries.map Prod.fst := by
  induction entries with
  | nil => simp
  | cons entry entries ih =>
      obtain ⟨name, value⟩ := entry
      rw [List.lookup_cons, List.map_cons, List.mem_cons, ← ih]
      by_cases hkey : key = name
      · simp [hkey]
      · simp [hkey, beq_false_of_ne hkey]

theorem lookup_eq_none_of_not_mem {entries : List (String × α)} {key : String}
    (h : key ∉ entries.map Prod.fst) : entries.lookup key = none := by
  rw [← Option.not_isSome_iff_eq_none, lookup_isSome_iff]
  exact h

theorem lookup_of_mem {entries : List (String × α)} (h : (entries.map Prod.fst).Nodup)
    {key : String} {value : α} (hmem : (key, value) ∈ entries) :
    entries.lookup key = some value := by
  induction entries with
  | nil => cases hmem
  | cons entry entries ih =>
      obtain ⟨name, other⟩ := entry
      rw [List.map_cons, List.nodup_cons] at h
      rcases List.mem_cons.mp hmem with heq | hrest
      · cases heq
        exact List.lookup_cons_self
      · have hne : key ≠ name := by
          rintro rfl
          exact h.1 (List.mem_map.mpr ⟨(key, value), hrest, rfl⟩)
        rw [List.lookup_cons, beq_false_of_ne hne]
        exact ih h.2 hrest

theorem lookup_eq_some_iff {entries : List (String × α)} (h : (entries.map Prod.fst).Nodup)
    {key : String} {value : α} : entries.lookup key = some value ↔ (key, value) ∈ entries := by
  refine ⟨fun hlookup => ?_, lookup_of_mem h⟩
  obtain ⟨before, behind, rfl, -⟩ := List.lookup_eq_some_iff.mp hlookup
  exact List.mem_append_right _ List.mem_cons_self

theorem lookup_eq_of_mem_iff {entries others : List (String × α)}
    (h : (entries.map Prod.fst).Nodup) (h' : (others.map Prod.fst).Nodup) {key : String}
    (hmem : ∀ value, (key, value) ∈ entries ↔ (key, value) ∈ others) :
    entries.lookup key = others.lookup key := by
  apply Option.ext
  intro value
  rw [lookup_eq_some_iff h, lookup_eq_some_iff h', hmem]

theorem lookup_filter {p : String → Bool} {key : String} (h : p key = true)
    (entries : List (String × α)) :
    (entries.filter fun entry => p entry.1).lookup key = entries.lookup key := by
  induction entries with
  | nil => rfl
  | cons entry entries ih =>
      obtain ⟨name, value⟩ := entry
      by_cases hkey : key = name
      · subst hkey
        simp only [List.filter_cons, h, if_true, List.lookup_cons_self]
      · rw [List.filter_cons, List.lookup_cons, beq_false_of_ne hkey, ← ih]
        split
        · rw [List.lookup_cons, beq_false_of_ne hkey]
        · rfl

theorem keys_nodup (table : Keyed α) : table.keys.Nodup :=
  table.sorted.imp String.ne_of_lt

theorem keys_map (f : α → β) (table : Keyed α) : (table.map f).keys = table.keys := by
  simp [map, keys, Function.comp_def]

theorem nodup_of_nodup_keys {entries : List (String × α)} (h : (entries.map Prod.fst).Nodup) :
    entries.Nodup :=
  List.Pairwise.of_map Prod.fst (fun _ _ hne heq => hne (congrArg Prod.fst heq)) h

theorem entries_ofList_perm {entries : List (String × α)} (h : (entries.map Prod.fst).Nodup) :
    (ofList entries).entries.Perm entries := by
  have hentries : ((ofList entries).entries.map Prod.fst).Nodup := keys_nodup _
  rw [List.perm_ext_iff_of_nodup (nodup_of_nodup_keys hentries) (nodup_of_nodup_keys h)]
  rintro ⟨key, value⟩
  rw [← lookup_eq_some_iff hentries, ← lookup_eq_some_iff h, ← get?_ofList h]
  rfl

theorem keys_insertAll_perm {entries : List (String × α)} (h : (entries.map Prod.fst).Nodup) :
    (insertAll ∅ entries).keys.Perm (entries.map Prod.fst) :=
  (entries_ofList_perm h).map Prod.fst

theorem ofList_eq_of_perm {entries others : List (String × α)} (h : entries.Perm others)
    (hnodup : (entries.map Prod.fst).Nodup) : ofList entries = ofList others := by
  have hothers : (others.map Prod.fst).Nodup := (h.map Prod.fst).nodup_iff.mp hnodup
  have hperm : (ofList entries).entries.Perm (ofList others).entries :=
    (entries_ofList_perm hnodup).trans (h.trans (entries_ofList_perm hothers).symm)
  have hsorted : ∀ table : Keyed α,
      table.entries.Pairwise fun first second => first.1 < second.1 :=
    fun table => List.pairwise_map.mp table.sorted
  apply ext
  apply hperm.eq_of_pairwise _ (hsorted _) (hsorted _)
  intro first second _ _ hlt hgt
  exact absurd (String.lt_trans hlt hgt) (String.lt_irrefl _)

theorem mem_of_mem_insertEntry {entry : String × α} {key : String} {value : α}
    {entries : List (String × α)} (h : entry ∈ insertEntry key value entries) :
    entry = (key, value) ∨ entry ∈ entries := by
  induction entries with
  | nil => simpa [insertEntry] using h
  | cons other entries ih =>
      simp only [insertEntry] at h
      grind

theorem mem_of_mem_insertAll {entry : String × α} {table : Keyed α}
    {entries : List (String × α)} (h : entry ∈ (table.insertAll entries).entries) :
    entry ∈ table.entries ∨ entry ∈ entries := by
  induction entries generalizing table with
  | nil => exact .inl h
  | cons other entries ih =>
      rcases @ih (table.insert other.1 other.2) h with hmem | hmem
      · rcases mem_of_mem_insertEntry hmem with rfl | hmem
        · exact .inr List.mem_cons_self
        · exact .inl hmem
      · exact .inr (List.mem_cons_of_mem _ hmem)

theorem mem_of_mem_ofList {entry : String × α} {entries : List (String × α)}
    (h : entry ∈ (ofList entries).entries) : entry ∈ entries :=
  (@mem_of_mem_insertAll α entry ∅ entries h).resolve_left List.not_mem_nil

theorem insertEntry_of_lt {key : String} {entries : List (String × α)}
    (h : ∀ name ∈ entries.map Prod.fst, name < key) (value : α) :
    insertEntry key value entries = entries ++ [(key, value)] := by
  induction entries with
  | nil => rfl
  | cons entry entries ih =>
      rw [List.map_cons, List.forall_mem_cons] at h
      have hnot : ¬ key < entry.1 := fun hlt => String.lt_irrefl _ (String.lt_trans hlt h.1)
      rw [insertEntry, if_neg hnot, if_pos h.1, ih h.2, List.cons_append]

theorem entries_insertAll {table : Keyed α} {entries : List (String × α)}
    (h : ((table.entries ++ entries).map Prod.fst).Pairwise (· < ·)) :
    (table.insertAll entries).entries = table.entries ++ entries := by
  induction entries generalizing table with
  | nil => exact (List.append_nil _).symm
  | cons entry entries ih =>
      have hlast : (table.insert entry.1 entry.2).entries = table.entries ++ [entry] := by
        rw [List.map_append, List.pairwise_append] at h
        exact insertEntry_of_lt (fun name hmem => h.2.2 name hmem entry.1 List.mem_cons_self) _
      rw [List.append_cons, ← hlast] at h ⊢
      exact ih h

theorem ofList_entries (table : Keyed α) : ofList table.entries = table :=
  ext (@entries_insertAll α ∅ table.entries table.sorted)

theorem eq_of_lookup_eq {entries others : List (String × α)}
    (hnames : entries.map Prod.fst = others.map Prod.fst) (hnodup : (entries.map Prod.fst).Nodup)
    (h : ∀ key, entries.lookup key = others.lookup key) : entries = others := by
  induction entries generalizing others with
  | nil => exact (List.map_eq_nil_iff.mp hnames.symm).symm
  | cons entry entries ih =>
      obtain ⟨name, value⟩ := entry
      cases others with
      | nil => cases hnames
      | cons other others =>
          obtain ⟨name', value'⟩ := other
          obtain ⟨hname, hrest⟩ := List.cons.inj hnames
          obtain rfl : name = name' := hname
          rw [List.map_cons, List.nodup_cons] at hnodup
          have hvalue := h name
          rw [List.lookup_cons_self, List.lookup_cons_self] at hvalue
          obtain rfl := Option.some.inj hvalue
          congr 1
          refine ih hrest hnodup.2 fun key => ?_
          by_cases hkey : key = name
          · -- the head hides nothing: its name does not come again
            rw [hkey, lookup_eq_none_of_not_mem hnodup.1,
              lookup_eq_none_of_not_mem (hrest ▸ hnodup.1)]
          · have hlookup := h key
            rw [List.lookup_cons, List.lookup_cons, beq_false_of_ne hkey] at hlookup
            exact hlookup

theorem ofList_inj {entries others : List (String × α)}
    (hnames : entries.map Prod.fst = others.map Prod.fst) (hnodup : (entries.map Prod.fst).Nodup)
    (h : ofList entries = ofList others) : entries = others := by
  apply eq_of_lookup_eq hnames hnodup
  intro key
  rw [← get?_ofList hnodup, h, get?_ofList (hnames ▸ hnodup)]

end ScanPath.Keyed
